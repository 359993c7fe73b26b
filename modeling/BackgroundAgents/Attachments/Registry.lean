import BackgroundAgents.Lib.Table
import Mathlib.Algebra.BigOperators.Group.List.Basic
import Mathlib.Algebra.Order.Ring.Int

/-!
# The attachment registry of a session

`SessionAttachmentRepository` with the handler that sweeps stale rows before it
records a new one. A row that the sweep has claimed (`cleanup_claimed_at`) is
withheld from messages until the object's deletion is acknowledged or the claim
is released.
-/

namespace BackgroundAgents.Attachments

/-- Texts are lists of characters. -/
abbrev Text := List Char

/-- A row of `attachments`. -/
structure AttachmentRow where
  id : Text
  mime_type : Text
  size_bytes : Nat
  object_key : Text
  message_id : Option Text
  cleanup_claimed_at : Option Int
  created_at : Int
  deriving DecidableEq, Repr

abbrev AttachmentTable := Table AttachmentRow.id

def SESSION_ATTACHMENT_LIMIT_PER_SESSION : Nat := 100
def SESSION_ATTACHMENT_TOTAL_BYTES_PER_SESSION : Nat := 500 * 1024 * 1024
def SESSION_ATTACHMENT_UNREFERENCED_TTL_MS : Int := 24 * 60 * 60 * 1000
def SESSION_ATTACHMENT_CLEANUP_CLAIM_TTL_MS : Int := 5 * 60 * 1000

/-- `sessions/${sessionId}/attachments/${attachmentId}` -/
def buildSessionAttachmentObjectKey (sessionId attachmentId : Text) : Text :=
  ['s', 'e', 's', 's', 'i', 'o', 'n', 's', '/'] ++ sessionId ++
    ['/', 'a', 't', 't', 'a', 'c', 'h', 'm', 'e', 'n', 't', 's', '/'] ++ attachmentId

theorem buildSessionAttachmentObjectKey_inj {sessionId a b : Text}
    (h : buildSessionAttachmentObjectKey sessionId a =
      buildSessionAttachmentObjectKey sessionId b) : a = b :=
  List.append_cancel_left h

/-! ## The repository -/

structure CreateSessionAttachmentData where
  id : Text
  mimeType : Text
  sizeBytes : Nat
  objectKey : Text
  createdAt : Int
  deriving DecidableEq, Repr

/-- `create`: refused when the id is taken. -/
def create (attachments : AttachmentTable) (data : CreateSessionAttachmentData) :
    Option AttachmentTable :=
  attachments.insert?
    { id := data.id
      mime_type := data.mimeType
      size_bytes := data.sizeBytes
      object_key := data.objectKey
      message_id := none
      cleanup_claimed_at := none
      created_at := data.createdAt }

structure AttachmentTotals where
  count : Nat
  totalBytes : Nat
  deriving DecidableEq, Repr

def getTotals (attachments : AttachmentTable) : AttachmentTotals where
  count := attachments.rows.length
  totalBytes := (attachments.rows.map (·.size_bytes)).sum

/-- `message_id IS NULL AND cleanup_claimed_at IS NULL` -/
def AttachmentRow.unclaimed (row : AttachmentRow) : Bool :=
  row.message_id.isNone && row.cleanup_claimed_at.isNone

/-- `claimForMessage` inside its transaction: `none` when it throws and the transaction is rolled
back. -/
def claimForMessage (attachments : AttachmentTable) (messageId : Text) (attachmentIds : List Text) :
    Option AttachmentTable :=
  if attachmentIds = [] then some attachments
  else
    let claims := fun row : AttachmentRow => attachmentIds.contains row.id && row.unclaimed
    if attachments.count claims ≠ attachmentIds.length then none
    else some (attachments.update claims fun row => { row with message_id := some messageId })

def releaseForMessage (attachments : AttachmentTable) (messageId : Text) : AttachmentTable :=
  attachments.update (fun row => row.message_id = some messageId)
    fun row => { row with message_id := none }

/-- The rows that a sweep claims. -/
def isStale (cutoff claimExpiredBefore : Int) (row : AttachmentRow) : Bool :=
  row.message_id.isNone && decide (row.created_at < cutoff) &&
    row.cleanup_claimed_at.all fun claimedAt => claimedAt < claimExpiredBefore

def claimStale (attachments : AttachmentTable) (cutoff claimedAt claimExpiredBefore : Int) :
    List AttachmentRow × AttachmentTable :=
  let stale := attachments.rows.filter (isStale cutoff claimExpiredBefore)
  (stale.map fun row => { row with cleanup_claimed_at := some claimedAt },
    attachments.update (fun row => (stale.map (·.id)).contains row.id)
      fun row => { row with cleanup_claimed_at := some claimedAt })

def acknowledgeCleanup (attachments : AttachmentTable) (attachmentIds : List Text)
    (claimedAt : Int) : AttachmentTable :=
  attachments.delete fun row =>
    attachmentIds.contains row.id ∧ row.cleanup_claimed_at = some claimedAt ∧ row.message_id = none

/-- The rows that `releaseCleanupClaims` makes claimable again. -/
def releasesClaim (attachmentIds : List Text) (claimedAt : Int) (row : AttachmentRow) : Bool :=
  attachmentIds.contains row.id ∧ row.message_id = none ∧ row.cleanup_claimed_at = some claimedAt

def releaseCleanupClaims (attachments : AttachmentTable) (attachmentIds : List Text)
    (claimedAt : Int) : AttachmentTable :=
  attachments.update (releasesClaim attachmentIds claimedAt)
    fun row => { row with cleanup_claimed_at := none }

/-! ## The handler -/

structure RecordAttachmentCommand where
  attachmentId : Text
  mimeType : Text
  sizeBytes : Nat
  deriving DecidableEq, Repr

/-- The `complete_cleanup` command. -/
structure CompleteCleanupCommand where
  cleanupClaimedAt : Int
  acknowledgedAttachmentIds : List Text
  releasedAttachmentIds : List Text
  deriving DecidableEq, Repr

structure StaleAttachment where
  attachmentId : Text
  objectKey : Text
  deriving DecidableEq, Repr

/-- What `recordAttachment` answers. -/
inductive RecordResponse where
  | ok
  | cleanup_required (cleanupClaimedAt : Int) (staleAttachments : List StaleAttachment)
  /-- 429 -/
  | limit_exceeded
  /-- The insert was refused. -/
  | failed
  deriving DecidableEq, Repr

def completeCleanup (attachments : AttachmentTable) (command : CompleteCleanupCommand) :
    AttachmentTable :=
  releaseCleanupClaims
    (acknowledgeCleanup attachments command.acknowledgedAttachmentIds command.cleanupClaimedAt)
    command.releasedAttachmentIds command.cleanupClaimedAt

/-- `recordAttachment` for a record command, at the time `now`. -/
def recordAttachment (sessionId : Text) (attachments : AttachmentTable)
    (record : RecordAttachmentCommand) (now : Int) : RecordResponse × AttachmentTable :=
  let claimed := claimStale attachments (now - SESSION_ATTACHMENT_UNREFERENCED_TTL_MS) now
    (now - SESSION_ATTACHMENT_CLEANUP_CLAIM_TTL_MS)
  if claimed.1 ≠ [] then
    (.cleanup_required now (claimed.1.map fun row =>
      { attachmentId := row.id, objectKey := row.object_key }), claimed.2)
  else
    let totals := getTotals attachments
    if SESSION_ATTACHMENT_LIMIT_PER_SESSION ≤ totals.count then (.limit_exceeded, attachments)
    else if SESSION_ATTACHMENT_TOTAL_BYTES_PER_SESSION < totals.totalBytes + record.sizeBytes then
      (.limit_exceeded, attachments)
    else
      match create attachments
        { id := record.attachmentId
          mimeType := record.mimeType
          sizeBytes := record.sizeBytes
          objectKey := buildSessionAttachmentObjectKey sessionId record.attachmentId
          createdAt := now } with
      | some attachments => (.ok, attachments)
      | none => (.failed, attachments)

/-! ## What each statement does to a row -/

theorem get?_claimForMessage {t t' : AttachmentTable} {messageId : Text} {ids : List Text}
    (h : claimForMessage t messageId ids = some t') (k : Text) :
    t'.get? k = (t.get? k).map fun row =>
      if row.id ∈ ids ∧ row.unclaimed = true then { row with message_id := some messageId }
      else row := by
  unfold claimForMessage at h
  split at h
  next hnil =>
    cases h
    subst hnil
    simp
  next =>
    dsimp only at h
    split at h
    next => cases h
    next =>
      cases h
      simp only [Table.get?_update, Bool.and_eq_true, List.contains_iff_mem]

theorem mem_stale_iff {t : AttachmentTable} {cutoff expired : Int} {row : AttachmentRow}
    (h : row ∈ t.rows) :
    (((t.rows.filter (isStale cutoff expired)).map (·.id)).contains row.id) = true ↔
      isStale cutoff expired row = true := by
  rw [List.contains_iff_mem, List.mem_map]
  constructor
  · intro hboth
    obtain ⟨x, hx, hid⟩ := hboth
    obtain ⟨hx, hs⟩ := List.mem_filter.mp hx
    rwa [← Table.eq_of_key hx h hid]
  · intro hs
    exact ⟨row, List.mem_filter.mpr ⟨h, hs⟩, rfl⟩

theorem get?_claimStale (t : AttachmentTable) (cutoff claimedAt expired : Int) (k : Text) :
    (claimStale t cutoff claimedAt expired).2.get? k = (t.get? k).map fun row =>
      if isStale cutoff expired row = true then
        { row with cleanup_claimed_at := some claimedAt }
      else row := by
  simp only [claimStale, Table.get?_update]
  cases hr : t.get? k with
  | none => rfl
  | some row =>
    rw [Option.map_some, Option.map_some, Option.some.injEq]
    exact if_congr (mem_stale_iff (Table.mem_of_get? hr)) rfl rfl

theorem get?_acknowledgeCleanup (t : AttachmentTable) (ids : List Text) (claimedAt : Int)
    (k : Text) :
    (acknowledgeCleanup t ids claimedAt).get? k = (t.get? k).filter fun row =>
      ¬ (row.id ∈ ids ∧ row.cleanup_claimed_at = some claimedAt ∧ row.message_id = none) := by
  simp only [acknowledgeCleanup, Table.get?_delete, List.contains_iff_mem, decide_not]

theorem get?_releaseCleanupClaims (t : AttachmentTable) (ids : List Text) (claimedAt : Int)
    (k : Text) :
    (releaseCleanupClaims t ids claimedAt).get? k = (t.get? k).map fun row =>
      if releasesClaim ids claimedAt row = true then { row with cleanup_claimed_at := none }
      else row := by
  simp only [releaseCleanupClaims, Table.get?_update]

/-- `claimForMessage` assigns all of the given attachments. -/
theorem claimForMessage_all {t t' : AttachmentTable} {messageId : Text} {ids : List Text}
    (h : claimForMessage t messageId ids = some t') {id : Text} (hid : id ∈ ids) :
    ∃ row, t.get? id = some row ∧ row.unclaimed = true ∧
      t'.get? id = some { row with message_id := some messageId } := by
  have hget := get?_claimForMessage h id
  unfold claimForMessage at h
  split at h
  next hnil =>
    subst hnil
    cases hid
  next =>
    dsimp only at h
    split at h
    next => cases h
    next hcount =>
      rw [Decidable.not_not, Table.count, List.countP_eq_length_filter] at hcount
      -- as many rows match as ids are given, and every row matches with its own id
      have hsubset : ((t.rows.filter fun row : AttachmentRow =>
          ids.contains row.id && row.unclaimed).map (·.id)) ⊆ ids := by
        intro x hx
        obtain ⟨row, hrow, rfl⟩ := List.mem_map.mp hx
        have hm := (List.mem_filter.mp hrow).2
        rw [Bool.and_eq_true] at hm
        exact List.contains_iff_mem.mp hm.1
      have hnodup := t.nodup.sublist ((List.filter_sublist (l := t.rows)
        (p := fun row : AttachmentRow => ids.contains row.id && row.unclaimed)).map (·.id))
      have hperm := (List.subperm_of_subset hnodup hsubset).perm_of_length_le
        (by rw [List.length_map, hcount])
      obtain ⟨row, hrow, rfl⟩ := List.mem_map.mp (hperm.mem_iff.mpr hid)
      obtain ⟨hrow, hm⟩ := List.mem_filter.mp hrow
      rw [Bool.and_eq_true] at hm
      have hg := Table.mem_rows_iff.mp hrow
      refine ⟨row, hg, hm.2, ?_⟩
      rw [hget, hg, Option.map_some, if_pos ⟨hid, hm.2⟩]

end BackgroundAgents.Attachments

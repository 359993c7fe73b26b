import BackgroundAgents.Attachments.Storage
import Mathlib.Algebra.Order.BigOperators.Group.List
import Mathlib.Algebra.Order.Group.Nat

/-!
# No message points at a deleted attachment

The registry's own invariants hold in every run. That the cleanup spares what a
message refers to rests on the claims: a row whose object is deleted, or about to
be, stays claimed. A release whose delete had taken effect after all breaks it
(`released_after_delete`), and nothing else does (`attachments_kept`).
-/

namespace BackgroundAgents.Attachments

open Transition

/-! ## What a command does to the rows -/

/-- What a statement can do to a row. -/
inductive RowStep (s : State) (a : Act) : AttachmentRow → AttachmentRow → Prop
  | same (row : AttachmentRow) : RowStep s a row row
  | claimed (row : AttachmentRow) (messageId : Text) :
    row.unclaimed = true → RowStep s a row { row with message_id := some messageId }
  | freed (row : AttachmentRow) : RowStep s a row { row with message_id := none }
  | swept (row : AttachmentRow) (claimedAt : Int) :
    row.message_id = none → RowStep s a row { row with cleanup_claimed_at := some claimedAt }
  | released (row : AttachmentRow) (command : CompleteCleanupCommand) :
    s.executes a = some command →
    releasesClaim command.releasedAttachmentIds command.cleanupClaimedAt row = true →
      RowStep s a row { row with cleanup_claimed_at := none }

variable {a : Act}

theorem RowStep.keeps {s : State} {row row' : AttachmentRow} (h : RowStep s a row row') :
    row'.id = row.id ∧ row'.object_key = row.object_key := by
  cases h with
  | same => exact ⟨rfl, rfl⟩
  | claimed => exact ⟨rfl, rfl⟩
  | freed => exact ⟨rfl, rfl⟩
  | swept => exact ⟨rfl, rfl⟩
  | released => exact ⟨rfl, rfl⟩

/-- Every row of `t` is a row of the registry before the step, or one that the step recorded. -/
structure Stepped (s : State) (a : Act) (t : AttachmentTable) : Prop where
  rows : ∀ row' ∈ t.rows, ∃ row ∈ s.attachments.rows, RowStep s a row row'
  sizes : (t.rows.map (·.size_bytes)).Sublist (s.attachments.rows.map (·.size_bytes))
  gone : ∀ row ∈ s.attachments.rows, t.get? row.id = none →
    ∃ command, s.executes a = some command ∧ row.id ∈ command.acknowledgedAttachmentIds ∧
      row.cleanup_claimed_at = some command.cleanupClaimedAt

theorem Stepped.refl (s : State) (a : Act) : Stepped s a s.attachments where
  rows row hrow := ⟨row, hrow, .same row⟩
  sizes := List.Sublist.refl _
  gone row hrow hnone := by
    rw [Table.mem_rows_iff.mp hrow] at hnone
    cases hnone

/-- A statement that rewrites rows in place. -/
theorem stepped_update (s : State) (a : Act) (p : AttachmentRow → Bool)
    (f : AttachmentRow → AttachmentRow) (hid : ∀ row, (f row).id = row.id)
    (hsize : ∀ row, (f row).size_bytes = row.size_bytes)
    (hf : ∀ row ∈ s.attachments.rows, p row = true → RowStep s a row (f row)) :
    Stepped s a (s.attachments.update p f hid) where
  rows row' hrow' := by
    obtain ⟨row, hrow, he⟩ := Table.mem_update.mp hrow'
    refine ⟨row, hrow, ?_⟩
    subst he
    split
    next hp => exact hf row hrow hp
    next => exact .same row
  sizes := by
    rw [Table.map_rows_update]
    exact hsize
  gone row hrow hnone := by
    rw [Table.get?_update, Table.mem_rows_iff.mp hrow] at hnone
    cases hnone

theorem stepped_claim (s : State) (a : Act) (messageId : Text) (ids : List Text) :
    Stepped s a ((claimForMessage s.attachments messageId ids).getD s.attachments) := by
  unfold claimForMessage
  split
  next => exact .refl s a
  next =>
    dsimp only
    split
    next => exact .refl s a
    next =>
      refine stepped_update s a _ (fun row => { row with message_id := some messageId })
        (fun _ => rfl) (fun _ => rfl) ?_
      intro row _ hp
      rw [Bool.and_eq_true] at hp
      exact .claimed row messageId hp.2

theorem stepped_release (s : State) (a : Act) (messageId : Text) :
    Stepped s a (releaseForMessage s.attachments messageId) :=
  stepped_update s a _ (fun row => { row with message_id := none }) (fun _ => rfl)
    (fun _ => rfl) fun row _ _ => .freed row

theorem stepped_sweep (s : State) (a : Act) (cutoff claimedAt expired : Int) :
    Stepped s a (claimStale s.attachments cutoff claimedAt expired).2 := by
  refine stepped_update s a _ (fun row => { row with cleanup_claimed_at := some claimedAt })
    (fun _ => rfl) (fun _ => rfl) ?_
  intro row hrow hp
  have hs := (mem_stale_iff hrow).mp hp
  simp only [isStale, Bool.and_eq_true, Option.isNone_iff_eq_none] at hs
  exact .swept row claimedAt hs.1.1

variable {command : CompleteCleanupCommand}

/-- The rows of one command are released after the acknowledged ones are gone. -/
theorem stepped_complete (s : State) (a : Act) (hc : s.executes a = some command) :
    Stepped s a (completeCleanup s.attachments command) where
  rows row' hrow' := by
    rw [completeCleanup, releaseCleanupClaims, Table.mem_update] at hrow'
    obtain ⟨row, hrow, he⟩ := hrow'
    refine ⟨row, (List.mem_filter.mp hrow).1, ?_⟩
    subst he
    split
    next hp => exact .released row command hc hp
    next => exact .same row
  sizes := by
    have hmap := Table.map_rows_update
      (acknowledgeCleanup s.attachments command.acknowledgedAttachmentIds command.cleanupClaimedAt)
      (releasesClaim command.releasedAttachmentIds command.cleanupClaimedAt)
      (fun row => { row with cleanup_claimed_at := none }) (fun _ => rfl) (·.size_bytes)
      (fun _ => rfl)
    rw [completeCleanup, releaseCleanupClaims, hmap]
    exact List.filter_sublist.map _
  gone row hrow hnone := by
    rw [completeCleanup, get?_releaseCleanupClaims, Option.map_eq_none_iff,
      get?_acknowledgeCleanup, Table.mem_rows_iff.mp hrow, Option.filter_eq_none_iff] at hnone
    have hin := hnone row rfl
    simp only [decide_not, Bool.not_eq_true, Bool.not_eq_false', decide_eq_true_eq] at hin
    exact ⟨command, hc, hin.1, hin.2.1⟩

/-! ## What recording adds -/

/-- The row of a record that was accepted. -/
def recordedRow (sessionId : Text) (record : RecordAttachmentCommand) (now : Int) :
    AttachmentRow where
  id := record.attachmentId
  mime_type := record.mimeType
  size_bytes := record.sizeBytes
  object_key := buildSessionAttachmentObjectKey sessionId record.attachmentId
  message_id := none
  cleanup_claimed_at := none
  created_at := now

/-- The ways a record command ends: the sweep claimed rows, the row was inserted within the limits,
or nothing changed. -/
theorem recordAttachment_cases (sessionId : Text) (t : AttachmentTable)
    (record : RecordAttachmentCommand) (now : Int) :
    (∃ stale, (recordAttachment sessionId t record now).1 = .cleanup_required now stale ∧
      (∀ x ∈ stale, ∃ row ∈ t.rows, row.id = x.attachmentId ∧ row.object_key = x.objectKey ∧
        isStale (now - SESSION_ATTACHMENT_UNREFERENCED_TTL_MS)
          (now - SESSION_ATTACHMENT_CLEANUP_CLAIM_TTL_MS) row = true) ∧
      (recordAttachment sessionId t record now).2 =
        (claimStale t (now - SESSION_ATTACHMENT_UNREFERENCED_TTL_MS) now
          (now - SESSION_ATTACHMENT_CLEANUP_CLAIM_TTL_MS)).2) ∨
    ((recordAttachment sessionId t record now).1 = .ok ∧
      t.insert? (recordedRow sessionId record now) =
        some (recordAttachment sessionId t record now).2 ∧
      (getTotals t).count < SESSION_ATTACHMENT_LIMIT_PER_SESSION ∧
      (getTotals t).totalBytes + record.sizeBytes ≤ SESSION_ATTACHMENT_TOTAL_BYTES_PER_SESSION) ∨
    (((recordAttachment sessionId t record now).1 = .limit_exceeded ∨
        (recordAttachment sessionId t record now).1 = .failed) ∧
      (recordAttachment sessionId t record now).2 = t) := by
  unfold recordAttachment
  dsimp only
  split
  next =>
    left
    refine ⟨_, rfl, ?_, rfl⟩
    intro x hx
    obtain ⟨row', hrow', rfl⟩ := List.mem_map.mp hx
    obtain ⟨row, hrow, rfl⟩ := List.mem_map.mp hrow'
    obtain ⟨hrow, hs⟩ := List.mem_filter.mp hrow
    exact ⟨row, hrow, rfl, rfl, hs⟩
  next =>
    right
    split
    next => exact .inr ⟨.inl rfl, rfl⟩
    next hcount =>
      split
      next => exact .inr ⟨.inl rfl, rfl⟩
      next hbytes =>
        split
        next t' ht' =>
          exact .inl ⟨rfl, ht', Nat.lt_of_not_le hcount, Nat.le_of_not_lt hbytes⟩
        next => exact .inr ⟨.inr rfl, rfl⟩

/-! ## What holds in every run -/

/-- What a `store` call has in hand. -/
structure Upload.Sound (sessionId : Text) (s : State) (u : Upload) : Prop where
  drawn : u.record.attachmentId ∈ s.drawn
  fresh : u.stage ≠ .putting → u.record.attachmentId ∉ s.registered
  deletions : ∀ attempt claimedAt deletions, u.stage = .cleaning attempt claimedAt deletions →
    ∀ d ∈ deletions, d.objectKey = buildSessionAttachmentObjectKey sessionId d.attachmentId ∧
      d.attachmentId ∈ s.registered ∧
      (u.live = true → d.settled = some true → (d.attachmentId, claimedAt) ∈ s.acknowledged)
  completing : ∀ attempt command, u.stage = .completing attempt command → command ∈ s.sent

structure Registered (sessionId : Text) (s : State) : Prop where
  exclusive : ∀ row ∈ s.attachments.rows, row.message_id = none ∨ row.cleanup_claimed_at = none
  keyed : ∀ row ∈ s.attachments.rows,
    row.object_key = buildSessionAttachmentObjectKey sessionId row.id
  recorded : ∀ row ∈ s.attachments.rows, row.id ∈ s.registered
  count : (getTotals s.attachments).count ≤ SESSION_ATTACHMENT_LIMIT_PER_SESSION
  bytes : (getTotals s.attachments).totalBytes ≤ SESSION_ATTACHMENT_TOTAL_BYTES_PER_SESSION
  uploads : ∀ u ∈ s.uploads, u.Sound sessionId s
  distinct : s.uploads.Pairwise fun u v => u.record.attachmentId ≠ v.record.attachmentId
  sent : ∀ command ∈ s.sent, ∀ id ∈ command.acknowledgedAttachmentIds,
    (id, command.cleanupClaimedAt) ∈ s.acknowledged
  acknowledged : ∀ p ∈ s.acknowledged, buildSessionAttachmentObjectKey sessionId p.1 ∈ s.deleted
  deleted : ∀ key ∈ s.deleted,
    ∃ id ∈ s.registered, key = buildSessionAttachmentObjectKey sessionId id
  drawn : ∀ id ∈ s.registered, id ∈ s.drawn

theorem Registered.initial (sessionId : Text) (now : Int) :
    Registered sessionId (.initial now) where
  exclusive _ h := by cases h
  keyed _ h := by cases h
  recorded _ h := by cases h
  count := Nat.zero_le _
  bytes := Nat.zero_le _
  uploads _ h := by cases h
  distinct := List.Pairwise.nil
  sent _ h := by cases h
  acknowledged _ h := by cases h
  deleted _ h := by cases h
  drawn _ h := by cases h

variable {sessionId : Text} {s : State}

variable {u : Upload}

/-- A call's knowledge lasts: the records of what happened only grow, and no other call records its
id. -/
theorem Upload.Sound.mono {t : State} (h : u.Sound sessionId s)
    (hdrawn : ∀ id ∈ s.drawn, id ∈ t.drawn) (hregistered : ∀ id ∈ s.registered, id ∈ t.registered)
    (hfresh : u.record.attachmentId ∉ s.registered → u.record.attachmentId ∉ t.registered)
    (hacknowledged : ∀ p ∈ s.acknowledged, p ∈ t.acknowledged)
    (hsent : ∀ command ∈ s.sent, command ∈ t.sent) : u.Sound sessionId t where
  drawn := hdrawn _ h.drawn
  fresh hp := hfresh (h.fresh hp)
  deletions attempt claimedAt deletions hs d hd := by
    obtain ⟨hkey, hreg, hack⟩ := h.deletions attempt claimedAt deletions hs d hd
    exact ⟨hkey, hregistered _ hreg, fun hl hf => hacknowledged _ (hack hl hf)⟩
  completing attempt command hs := hsent _ (h.completing attempt command hs)

/-- A statement keeps what holds of the rows. -/
theorem Registered.table (h : Registered sessionId s) {t : AttachmentTable} (hs : Stepped s a t) :
    Registered sessionId { s with attachments := t } where
  exclusive row' hrow' := by
    obtain ⟨row, hrow, hstep⟩ := hs.rows row' hrow'
    cases hstep with
    | same => exact h.exclusive _ hrow
    | claimed messageId hu =>
      simp only [AttachmentRow.unclaimed, Bool.and_eq_true, Option.isNone_iff_eq_none] at hu
      exact .inr hu.2
    | freed => exact .inl rfl
    | swept claimedAt hm => exact .inl hm
    | released => exact .inr rfl
  keyed row' hrow' := by
    obtain ⟨row, hrow, hstep⟩ := hs.rows row' hrow'
    rw [hstep.keeps.1, hstep.keeps.2]
    exact h.keyed row hrow
  recorded row' hrow' := by
    obtain ⟨row, hrow, hstep⟩ := hs.rows row' hrow'
    rw [hstep.keeps.1]
    exact h.recorded row hrow
  count := by
    have hl := hs.sizes.length_le
    rw [List.length_map, List.length_map] at hl
    exact Nat.le_trans hl h.count
  bytes := Nat.le_trans (hs.sizes.sum_le_sum fun _ _ => Nat.zero_le _) h.bytes
  uploads u hu := (h.uploads u hu).mono (fun _ hi => hi) (fun _ hi => hi) (fun hi => hi)
    (fun _ hi => hi) fun _ hi => hi
  distinct := h.distinct
  sent := h.sent
  acknowledged := h.acknowledged
  deleted := h.deleted
  drawn := h.drawn

variable {i : Nat}

/-- Call `i` goes on, with what it had in hand or knows now. -/
theorem Registered.advance (h : Registered sessionId s) (hu : s.uploads[i]? = some u)
    {next : Option Upload} (hid : ∀ v, next = some v → v.record = u.record)
    (hnext : ∀ v, next = some v → v.Sound sessionId s) :
    Registered sessionId { s with uploads := BackgroundAgents.advance s.uploads i next } :=
  { h with
    uploads := by
      intro v hv
      refine Upload.Sound.mono (s := s) ?_ (fun _ hi => hi) (fun _ hi => hi) (fun hi => hi)
        (fun _ hi => hi) fun _ hi => hi
      rcases mem_of_mem_advance hv with hv | hv
      · exact h.uploads v hv
      · exact hnext v hv
    distinct := by
      refine pairwise_advance (fun _ _ hne => hne.symm) h.distinct hu ?_
      intro v hv y hy
      rw [hid v hv]
      exact hy }

variable {attempt : Nat}

/-- The end of a call whose record was not accepted. -/
theorem afterRecord_refused {answer : RecordResponse}
    (h : answer = .limit_exceeded ∨ answer = .failed) : afterRecord u attempt answer = none := by
  rcases h with h | h
  · rw [h]
    rfl
  · rw [h]
    rfl

theorem Registered.register (h : Registered sessionId s) {a : Act} {i : Nat} {u : Upload}
    (hu : s.uploads[i]? = some u) {attempt : Nat} (hstage : u.stage = .registering attempt) :
    Registered sessionId
      { s with
        attachments := (recordAttachment sessionId s.attachments u.record s.now).2
        uploads := BackgroundAgents.advance s.uploads i
          (afterRecord u attempt (recordAttachment sessionId s.attachments u.record s.now).1)
        registered :=
          if (recordAttachment sessionId s.attachments u.record s.now).1 = .ok then
            u.record.attachmentId :: s.registered
          else s.registered } := by
  have hsound := h.uploads u (List.mem_of_getElem? hu)
  have hfresh := hsound.fresh (by rw [hstage]; intro he; cases he)
  rcases recordAttachment_cases sessionId s.attachments u.record s.now with
    ⟨stale, hans, hstale, htable⟩ | ⟨hans, hinsert, hcount, hbytes⟩ | ⟨hans, htable⟩
  · -- the sweep claimed rows: the call goes on to delete their objects
    rw [hans, htable, if_neg (by intro he; cases he)]
    have ht := h.table (stepped_sweep s a (s.now - SESSION_ATTACHMENT_UNREFERENCED_TTL_MS) s.now
      (s.now - SESSION_ATTACHMENT_CLEANUP_CLAIM_TTL_MS))
    refine ht.advance hu ?_ ?_
    · intro v hv
      cases hv
      rfl
    · intro v hv
      cases hv
      exact
        { drawn := hsound.drawn
          fresh := fun _ => hfresh
          deletions := by
            intro attempt' claimedAt deletions hs d hd
            cases hs
            obtain ⟨x, hx, rfl⟩ := List.mem_map.mp hd
            obtain ⟨row, hrow, hid, hkey, _⟩ := hstale x hx
            refine ⟨?_, ?_, ?_⟩
            · rw [← hkey, ← hid]
              exact h.keyed row hrow
            · change x.attachmentId ∈ s.registered
              rw [← hid]
              exact h.recorded row hrow
            · intro _ hf
              cases hf
          completing := by
            intro attempt' command hs
            cases hs }
  · -- the row was inserted, within the limits
    rw [hans, if_pos rfl]
    have hrows := Table.rows_insert? hinsert
    generalize (recordAttachment sessionId s.attachments u.record s.now).2 = t at hinsert hrows ⊢
    have hmem : ∀ row ∈ t.rows, row ∈ s.attachments.rows ∨
        row = recordedRow sessionId u.record s.now := by
      intro row hrow
      rw [hrows, List.mem_append, List.mem_singleton] at hrow
      exact hrow
    exact
      { h with
        exclusive := by
          intro row hrow
          rcases hmem row hrow with hrow | rfl
          · exact h.exclusive row hrow
          · exact .inl rfl
        keyed := by
          intro row hrow
          rcases hmem row hrow with hrow | rfl
          · exact h.keyed row hrow
          · rfl
        recorded := by
          intro row hrow
          rcases hmem row hrow with hrow | rfl
          · exact List.mem_cons_of_mem _ (h.recorded row hrow)
          · exact List.mem_cons_self
        count := by
          simp only [getTotals, hrows, List.length_append, List.length_singleton]
          exact hcount
        bytes := by
          simp only [getTotals, hrows, List.map_append, List.sum_append, List.map_cons,
            List.map_nil, List.sum_singleton]
          exact hbytes
        uploads := by
          intro v hv
          dsimp only at hv
          rcases mem_advance_pairwise (fun _ _ hne => hne.symm) h.distinct hu hv with hv | ⟨hv, hne⟩
          · cases hv
            exact
              { drawn := hsound.drawn
                fresh := fun hp => absurd rfl hp
                deletions := fun _ _ _ hs => by cases hs
                completing := fun _ _ hs => by cases hs }
          · refine (h.uploads v hv).mono (fun _ hi => hi) (fun _ hi => List.mem_cons_of_mem _ hi) ?_
              (fun _ hi => hi) fun _ hi => hi
            intro hnot hin
            rcases List.mem_cons.mp hin with he | hin
            · exact hne he.symm
            · exact hnot hin
        distinct := by
          dsimp only
          refine pairwise_advance (fun _ _ hne => hne.symm) h.distinct hu ?_
          intro v hv y hy
          cases hv
          exact hy
        deleted := by
          intro key hkey
          obtain ⟨id, hid, he⟩ := h.deleted key hkey
          exact ⟨id, List.mem_cons_of_mem _ hid, he⟩
        drawn := by
          intro id hid
          rcases List.mem_cons.mp hid with rfl | hid
          · exact hsound.drawn
          · exact h.drawn id hid }
  · rw [htable, afterRecord_refused hans, if_neg (by rcases hans with he | he <;> simp [he])]
    refine h.advance hu ?_ ?_
    · intro v hv
      cases hv
    · intro v hv
      cases hv

variable {deletions : List Deletion}

/-- A delete settles. Whatever was fulfilled for a live call is acknowledged to it. -/
theorem Registered.delete (h : Registered sessionId s) {i k : Nat} (hu : s.uploads[i]? = some u)
    {claimedAt : Int} (hstage : u.stage = .cleaning attempt claimedAt deletions) {d : Deletion}
    (hd : deletions[k]? = some d) (outcome : DeleteOutcome) :
    Registered sessionId
      { s with
        uploads := BackgroundAgents.advance s.uploads i
          (some
            { u with
              stage := .cleaning attempt claimedAt
                (deletions.set k { d with settled := some (outcome = .fulfilled) }) })
        deleted := if outcome.tookEffect then d.objectKey :: s.deleted else s.deleted
        acknowledged :=
          if outcome = .fulfilled ∧ u.live then (d.attachmentId, claimedAt) :: s.acknowledged
          else s.acknowledged } := by
  have hsound := h.uploads u (List.mem_of_getElem? hu)
  have hds := hsound.deletions attempt claimedAt deletions hstage
  obtain ⟨hkey, hreg, _⟩ := hds d (List.mem_of_getElem? hd)
  have hacknowledged : ∀ p ∈ s.acknowledged,
      p ∈ if outcome = .fulfilled ∧ u.live then (d.attachmentId, claimedAt) :: s.acknowledged
        else s.acknowledged := by
    intro p hp
    split
    · exact List.mem_cons_of_mem _ hp
    · exact hp
  have hdeleted : ∀ key ∈ s.deleted,
      key ∈ if outcome.tookEffect then d.objectKey :: s.deleted else s.deleted := by
    intro key hk
    split
    · exact List.mem_cons_of_mem _ hk
    · exact hk
  exact
    { h with
      uploads := by
        intro v hv
        dsimp only at hv
        rcases mem_of_mem_advance hv with hv | hv
        · exact (h.uploads v hv).mono (fun _ hi => hi) (fun _ hi => hi) (fun hi => hi)
            hacknowledged fun _ hi => hi
        · cases hv
          exact
            { drawn := hsound.drawn
              fresh := fun _ => hsound.fresh (by rw [hstage]; intro he; cases he)
              deletions := by
                intro attempt' claimedAt' deletions' hs x hx
                cases hs
                rcases List.mem_or_eq_of_mem_set hx with hx | rfl
                · obtain ⟨hxkey, hxreg, hxack⟩ := hds x hx
                  exact ⟨hxkey, hxreg, fun hl hf => hacknowledged _ (hxack hl hf)⟩
                · refine ⟨hkey, hreg, ?_⟩
                  intro hl hf
                  have hful : outcome = .fulfilled := by simpa using hf
                  dsimp only at hl ⊢
                  rw [if_pos ⟨hful, hl⟩]
                  exact List.mem_cons_self
              completing := by
                intro attempt' command hs
                cases hs }
      distinct := by
        dsimp only
        refine pairwise_advance (fun _ _ hne => hne.symm) h.distinct hu ?_
        intro v hv y hy
        cases hv
        exact hy
      sent := fun command hc id hid => hacknowledged _ (h.sent command hc id hid)
      acknowledged := by
        intro p hp
        dsimp only at hp
        split at hp
        next hful =>
          rcases List.mem_cons.mp hp with rfl | hp
          · rw [hful.1]
            rw [← hkey]
            exact List.mem_cons_self
          · exact hdeleted _ (h.acknowledged p hp)
        next => exact hdeleted _ (h.acknowledged p hp)
      deleted := by
        intro key hk
        split at hk
        next =>
          rcases List.mem_cons.mp hk with rfl | hk
          · exact ⟨d.attachmentId, hreg, hkey⟩
          · exact h.deleted key hk
        next => exact h.deleted key hk }

theorem Registered.sendCompletion (h : Registered sessionId s) (hu : s.uploads[i]? = some u)
    (hlive : u.live = true) {claimedAt : Int}
    (hstage : u.stage = .cleaning attempt claimedAt deletions) :
    Registered sessionId
      { s with
        uploads := BackgroundAgents.advance s.uploads i
          (some { u with stage := .completing attempt (completionCommand claimedAt deletions) })
        sent := s.sent ++ [completionCommand claimedAt deletions] } := by
  have hsound := h.uploads u (List.mem_of_getElem? hu)
  have hsent : ∀ command ∈ s.sent, command ∈ s.sent ++ [completionCommand claimedAt deletions] :=
    fun _ hc => List.mem_append_left _ hc
  exact
    { h with
      uploads := by
        intro v hv
        dsimp only at hv
        rcases mem_of_mem_advance hv with hv | hv
        · exact (h.uploads v hv).mono (fun _ hi => hi) (fun _ hi => hi) (fun hi => hi)
            (fun _ hi => hi) hsent
        · cases hv
          exact
            { drawn := hsound.drawn
              fresh := fun _ => hsound.fresh (by rw [hstage]; intro he; cases he)
              deletions := fun _ _ _ hs => by cases hs
              completing := by
                intro attempt' command hs
                cases hs
                exact List.mem_append_right _ List.mem_cons_self }
      distinct := by
        dsimp only
        refine pairwise_advance (fun _ _ hne => hne.symm) h.distinct hu ?_
        intro v hv y hy
        cases hv
        exact hy
      sent := by
        intro command hc id hid
        rcases List.mem_append.mp hc with hc | hc
        · exact h.sent command hc id hid
        · rw [List.mem_singleton] at hc
          subst hc
          obtain ⟨d, hd, rfl⟩ := List.mem_map.mp hid
          obtain ⟨hd, hful⟩ := List.mem_filter.mp hd
          obtain ⟨_, _, hack⟩ := hsound.deletions attempt claimedAt deletions hstage d hd
          exact hack hlive (of_decide_eq_true hful) }

/-- The command of a live call that waits for its answer is the one executed. -/
theorem executes_completed (hu : s.uploads[i]? = some u)
    (hstage : u.stage = .completing attempt command) :
    s.executes (.completed i) = some command := by
  simp only [State.executes, hu, Option.bind_some, hstage]

theorem Registered.step (h : Registered sessionId s) {a : Act} {t : State}
    (hstep : s.step sessionId a = some t) : Registered sessionId t := by
  cases a with
  | start record =>
    simp only [State.step] at hstep
    split at hstep
    next => cases hstep
    next hnew =>
      cases hstep
      have hold : ∀ u ∈ s.uploads, u.record.attachmentId ≠ record.attachmentId := by
        intro u hu he
        exact hnew (he ▸ (h.uploads u hu).drawn)
      exact
        { h with
          uploads := by
            intro u hu
            rcases List.mem_append.mp hu with hu | hu
            · exact (h.uploads u hu).mono (fun _ hi => List.mem_cons_of_mem _ hi) (fun _ hi => hi)
                (fun hi => hi) (fun _ hi => hi) fun _ hi => hi
            · rw [List.mem_singleton] at hu
              subst hu
              exact
                { drawn := List.mem_cons_self
                  fresh := fun _ hin => hnew (h.drawn _ hin)
                  deletions := fun _ _ _ hs => by cases hs
                  completing := fun _ _ hs => by cases hs }
          distinct := by
            refine List.pairwise_append.mpr ⟨h.distinct, List.pairwise_singleton _ _, ?_⟩
            intro u hu v hv
            rw [List.mem_singleton] at hv
            subst hv
            exact hold u hu
          drawn := fun id hid => List.mem_cons_of_mem _ (h.drawn id hid) }
  | register i =>
    simp only [State.step] at hstep
    split at hstep
    next u hu =>
      split at hstep
      next attempt _ hstage =>
        cases hstep
        exact h.register (a := .register i) hu hstage
      next => cases hstep
    next => cases hstep
  | delete i k outcome =>
    simp only [State.step] at hstep
    split at hstep
    next u hu =>
      split at hstep
      next attempt claimedAt deletions hstage =>
        split at hstep
        next d hd =>
          split at hstep
          next =>
            cases hstep
            exact h.delete hu hstage hd outcome
          next => cases hstep
        next => cases hstep
      next => cases hstep
    next => cases hstep
  | sendCompletion i =>
    simp only [State.step] at hstep
    split at hstep
    next u hu =>
      split at hstep
      next attempt claimedAt deletions hlive hstage =>
        split at hstep
        next =>
          cases hstep
          exact h.sendCompletion hu hlive hstage
        next => cases hstep
      next => cases hstep
    next => cases hstep
  | completed i =>
    simp only [State.step] at hstep
    split at hstep
    next u hu =>
      split at hstep
      next attempt command _ hstage =>
        cases hstep
        have ht := h.table (stepped_complete s _ (executes_completed hu hstage))
        have hsound := ht.uploads u (List.mem_of_getElem? hu)
        refine ht.advance hu ?_ ?_
        · intro v hv
          unfold afterCompletion at hv
          split at hv
          next => cases hv
          next =>
            split at hv
            next =>
              cases hv
              rfl
            next => cases hv
        · intro v hv
          unfold afterCompletion at hv
          split at hv
          next => cases hv
          next =>
            split at hv
            next =>
              cases hv
              exact
                { drawn := hsound.drawn
                  fresh := fun _ => hsound.fresh (by rw [hstage]; intro he; cases he)
                  deletions := fun _ _ _ hs => by cases hs
                  completing := fun _ _ hs => by cases hs }
            next => cases hv
      next => cases hstep
    next => cases hstep
  | repeated k =>
    obtain ⟨command, hc, rfl⟩ := Option.map_eq_some_iff.mp hstep
    exact h.table (stepped_complete s (.repeated k) hc)
  | put i =>
    simp only [State.step] at hstep
    split at hstep
    next u hu =>
      split at hstep
      next =>
        cases hstep
        exact h.advance hu (fun _ hv => by cases hv) fun _ hv => by cases hv
      next => cases hstep
    next => cases hstep
  | crash i =>
    obtain ⟨u, hu, rfl⟩ := Option.map_eq_some_iff.mp hstep
    have hsound := h.uploads u (List.mem_of_getElem? hu)
    refine h.advance hu ?_ ?_
    · intro v hv
      cases hv
      rfl
    · intro v hv
      cases hv
      exact
        { hsound with
          deletions := by
            intro attempt claimedAt deletions hs d hd
            obtain ⟨hkey, hreg, _⟩ := hsound.deletions attempt claimedAt deletions hs d hd
            exact ⟨hkey, hreg, fun hl => by cases hl⟩ }
  | createMessage messageId ids =>
    cases hstep
    exact h.table (stepped_claim s (.createMessage messageId ids) messageId ids)
  | cancelMessage messageId =>
    cases hstep
    exact h.table (stepped_release s (.cancelMessage messageId) messageId)
  | tick now =>
    simp only [State.step] at hstep
    split at hstep
    next =>
      cases hstep
      exact ⟨h.exclusive, h.keyed, h.recorded, h.count, h.bytes, fun u hu =>
        ⟨(h.uploads u hu).drawn, (h.uploads u hu).fresh, (h.uploads u hu).deletions,
          (h.uploads u hu).completing⟩,
        h.distinct, h.sent, h.acknowledged, h.deleted, h.drawn⟩
    next => cases hstep

/-- A row is removed only by a command that acknowledges it under its claim. -/
theorem gone_step {t : State} (hstep : s.step sessionId a = some t) {row : AttachmentRow}
    (hrow : row ∈ s.attachments.rows) (hnone : t.attachments.get? row.id = none) :
    ∃ command, s.executes a = some command ∧ row.id ∈ command.acknowledgedAttachmentIds ∧
      row.cleanup_claimed_at = some command.cleanupClaimedAt := by
  cases a with
  | start record =>
    simp only [State.step] at hstep
    split at hstep
    next => cases hstep
    next =>
      cases hstep
      exact (Stepped.refl s _).gone row hrow hnone
  | register i =>
    simp only [State.step] at hstep
    split at hstep
    next u hu =>
      split at hstep
      next attempt _ hstage =>
        cases hstep
        rcases recordAttachment_cases sessionId s.attachments u.record s.now with
          ⟨_, _, _, htable⟩ | ⟨_, hinsert, _, _⟩ | ⟨_, htable⟩
        · rw [htable] at hnone
          exact (stepped_sweep s (.register i) _ s.now _).gone row hrow hnone
        · rw [Table.get?_insert? hinsert] at hnone
          split at hnone
          next => cases hnone
          next => exact (Stepped.refl s _).gone row hrow hnone
        · rw [htable] at hnone
          exact (Stepped.refl s _).gone row hrow hnone
      next => cases hstep
    next => cases hstep
  | delete i k outcome =>
    simp only [State.step] at hstep
    split at hstep
    next u hu =>
      split at hstep
      next =>
        split at hstep
        next =>
          split at hstep
          next =>
            cases hstep
            exact (Stepped.refl s _).gone row hrow hnone
          next => cases hstep
        next => cases hstep
      next => cases hstep
    next => cases hstep
  | sendCompletion i =>
    simp only [State.step] at hstep
    split at hstep
    next u hu =>
      split at hstep
      next =>
        split at hstep
        next =>
          cases hstep
          exact (Stepped.refl s _).gone row hrow hnone
        next => cases hstep
      next => cases hstep
    next => cases hstep
  | completed i =>
    simp only [State.step] at hstep
    split at hstep
    next u hu =>
      split at hstep
      next attempt command _ hstage =>
        cases hstep
        exact (stepped_complete s _ (executes_completed hu hstage)).gone row hrow hnone
      next => cases hstep
    next => cases hstep
  | repeated k =>
    obtain ⟨command, hc, rfl⟩ := Option.map_eq_some_iff.mp hstep
    exact (stepped_complete s (.repeated k) hc).gone row hrow hnone
  | put i =>
    simp only [State.step] at hstep
    split at hstep
    next u hu =>
      split at hstep
      next =>
        cases hstep
        exact (Stepped.refl s _).gone row hrow hnone
      next => cases hstep
    next => cases hstep
  | crash i =>
    obtain ⟨u, hu, rfl⟩ := Option.map_eq_some_iff.mp hstep
    exact (Stepped.refl s _).gone row hrow hnone
  | createMessage messageId ids =>
    cases hstep
    exact (stepped_claim s (.createMessage messageId ids) messageId ids).gone row hrow hnone
  | cancelMessage messageId =>
    cases hstep
    exact (stepped_release s (.cancelMessage messageId) messageId).gone row hrow hnone
  | tick now =>
    simp only [State.step] at hstep
    split at hstep
    next =>
      cases hstep
      exact (Stepped.refl s _).gone row hrow hnone
    next => cases hstep

/-- A command that executes was sent. -/
theorem Registered.executes_sent (h : Registered sessionId s) (hc : s.executes a = some command) :
    command ∈ s.sent := by
  cases a with
  | completed i =>
    obtain ⟨u, hu, hstage⟩ := Option.bind_eq_some_iff.mp hc
    split at hstage
    next attempt command' hs =>
      cases hstage
      exact (h.uploads u (List.mem_of_getElem? hu)).completing attempt command hs
    next => cases hstage
  | repeated k => exact List.mem_of_getElem? hc
  | start record => cases hc
  | register i => cases hc
  | delete i k outcome => cases hc
  | sendCompletion i => cases hc
  | put i => cases hc
  | crash i => cases hc
  | createMessage messageId ids => cases hc
  | cancelMessage messageId => cases hc
  | tick now => cases hc

/-! ## What holds while releases keep to rows whose objects are there -/

theorem deleting_iff {id : Text} :
    u.deleting id = true ↔ ∃ attempt claimedAt deletions,
      u.stage = .cleaning attempt claimedAt deletions ∧
        ∃ d ∈ deletions, d.attachmentId = id ∧ d.settled = none := by
  unfold Upload.deleting
  constructor
  · intro h
    split at h
    next attempt claimedAt deletions hs =>
      obtain ⟨d, hd, hp⟩ := List.any_eq_true.mp h
      exact ⟨attempt, claimedAt, deletions, hs, d, hd, of_decide_eq_true hp⟩
    next => cases h
    next => cases h
    next => cases h
  · intro hboth
    obtain ⟨attempt, claimedAt, deletions, hs, d, hd, hp⟩ := hboth
    rw [hs]
    exact List.any_eq_true.mpr ⟨d, hd, decide_eq_true hp⟩

/-- A row whose object is deleted, or about to be, is claimed. -/
structure Held (s : State) : Prop where
  inFlight : ∀ u ∈ s.uploads, ∀ row ∈ s.attachments.rows, u.deleting row.id = true →
    row.cleanup_claimed_at ≠ none
  deleted : ∀ row ∈ s.attachments.rows, row.object_key ∈ s.deleted →
    row.cleanup_claimed_at ≠ none

theorem Held.initial (now : Int) : Held (.initial now) where
  inFlight _ hu := by cases hu
  deleted _ hrow := by cases hrow

theorem Held.table (hh : Held s) (hok : ReleasesKept s a) {t : AttachmentTable} (hs : Stepped s a t)
    :
    Held { s with attachments := t } where
  inFlight u hu row' hrow' hd := by
    obtain ⟨row, hrow, hstep⟩ := hs.rows row' hrow'
    cases hstep with
    | same => exact hh.inFlight u hu _ hrow hd
    | claimed => exact hh.inFlight u hu row hrow hd
    | freed => exact hh.inFlight u hu row hrow hd
    | swept =>
      intro he
      cases he
    | released command hc hr =>
      have hnot := (hok command hc row hrow hr).2 u hu
      rw [hd] at hnot
      cases hnot
  deleted row' hrow' hk := by
    obtain ⟨row, hrow, hstep⟩ := hs.rows row' hrow'
    cases hstep with
    | same => exact hh.deleted _ hrow hk
    | claimed => exact hh.deleted row hrow hk
    | freed => exact hh.deleted row hrow hk
    | swept =>
      intro he
      cases he
    | released command hc hr => exact absurd hk (hok command hc row hrow hr).1

/-- A call that goes on to delete nothing new. -/
theorem Held.advance (hh : Held s) (hu : s.uploads[i]? = some u) {next : Option Upload}
    (hnext : ∀ v, next = some v → ∀ id, v.deleting id = true → u.deleting id = true) :
    Held { s with uploads := BackgroundAgents.advance s.uploads i next } where
  inFlight v hv row hrow hd := by
    rcases mem_of_mem_advance hv with hv | hv
    · exact hh.inFlight v hv row hrow hd
    · exact hh.inFlight u (List.mem_of_getElem? hu) row hrow (hnext v hv row.id hd)
  deleted := hh.deleted

theorem Held.register (h : Registered sessionId s) (hh : Held s) (hok : ReleasesKept s a)
    (hu : s.uploads[i]? = some u) (hstage : u.stage = .registering attempt) :
    Held
      { s with
        attachments := (recordAttachment sessionId s.attachments u.record s.now).2
        uploads := BackgroundAgents.advance s.uploads i
          (afterRecord u attempt (recordAttachment sessionId s.attachments u.record s.now).1)
        registered :=
          if (recordAttachment sessionId s.attachments u.record s.now).1 = .ok then
            u.record.attachmentId :: s.registered
          else s.registered } := by
  have hsound := h.uploads u (List.mem_of_getElem? hu)
  have hfresh := hsound.fresh (by rw [hstage]; intro he; cases he)
  rcases recordAttachment_cases sessionId s.attachments u.record s.now with
    ⟨stale, hans, hstale, htable⟩ | ⟨hans, hinsert, _, _⟩ | ⟨hans, htable⟩
  · rw [hans, htable]
    have ht := hh.table hok (stepped_sweep s a (s.now - SESSION_ATTACHMENT_UNREFERENCED_TTL_MS)
      s.now (s.now - SESSION_ATTACHMENT_CLEANUP_CLAIM_TTL_MS))
    exact
      { inFlight := by
          intro v hv row' hrow' hd
          dsimp only at hv hrow'
          rcases mem_of_mem_advance hv with hv | hv
          · exact ht.inFlight v hv row' hrow' hd
          · -- the rows it is to delete are those that were claimed just now
            cases hv
            obtain ⟨_, _, _, hs, d, hd, hid, _⟩ := deleting_iff.mp hd
            cases hs
            obtain ⟨x, hx, rfl⟩ := List.mem_map.mp hd
            obtain ⟨row, hrow, hrid, _, hst⟩ := hstale x hx
            rw [Table.mem_rows_iff, get?_claimStale, ← hid, ← hrid, Table.mem_rows_iff.mp hrow,
              Option.map_some, if_pos hst, Option.some.injEq] at hrow'
            subst hrow'
            intro he
            cases he
        deleted := ht.deleted }
  · rw [hans]
    have hrows := Table.rows_insert? hinsert
    generalize (recordAttachment sessionId s.attachments u.record s.now).2 = t at hrows ⊢
    have hmem : ∀ row ∈ t.rows, row ∈ s.attachments.rows ∨
        row = recordedRow sessionId u.record s.now := by
      intro row hrow
      rw [hrows, List.mem_append, List.mem_singleton] at hrow
      exact hrow
    exact
      { inFlight := by
          intro v hv row hrow hd
          dsimp only at hv hrow
          obtain ⟨_, _, _, hs, d, hdm, hid, _⟩ := deleting_iff.mp hd
          rcases mem_of_mem_advance hv with hv | hv
          · rcases hmem row hrow with hrow | rfl
            · exact hh.inFlight v hv row hrow hd
            · -- a cleanup holds ids that were recorded before
              obtain ⟨_, hreg, _⟩ := (h.uploads v hv).deletions _ _ _ hs d hdm
              rw [hid] at hreg
              exact absurd hreg hfresh
          · cases hv
            cases hs
        deleted := by
          intro row hrow hk
          rcases hmem row hrow with hrow | rfl
          · exact hh.deleted row hrow hk
          · obtain ⟨id, hid, he⟩ := h.deleted _ hk
            have hinj := buildSessionAttachmentObjectKey_inj he
            exact absurd (hinj ▸ hid) hfresh }
  · rw [htable, afterRecord_refused hans]
    have hadvanced : Held { s with uploads := BackgroundAgents.advance s.uploads i none } := by
      refine hh.advance hu ?_
      intro v hv
      cases hv
    exact ⟨hadvanced.inFlight, hadvanced.deleted⟩

theorem Held.delete (h : Registered sessionId s) (hh : Held s) {i k : Nat}
    (hu : s.uploads[i]? = some u) {claimedAt : Int}
    (hstage : u.stage = .cleaning attempt claimedAt deletions) {d : Deletion}
    (hd : deletions[k]? = some d) (hsettled : d.settled = none) (outcome : DeleteOutcome)
    (acknowledged : List (Text × Int)) :
    Held
      { s with
        uploads := BackgroundAgents.advance s.uploads i
          (some
            { u with
              stage := .cleaning attempt claimedAt
                (deletions.set k { d with settled := some (outcome = .fulfilled) }) })
        deleted := if outcome.tookEffect then d.objectKey :: s.deleted else s.deleted
        acknowledged } := by
  have hadvanced : Held
      { s with
        uploads := BackgroundAgents.advance s.uploads i
          (some
            { u with
              stage := .cleaning attempt claimedAt
                (deletions.set k { d with settled := some (outcome = .fulfilled) }) }) } := by
    refine hh.advance hu ?_
    intro v hv id hid
    cases hv
    obtain ⟨_, _, _, hs, x, hx, hxid, hxs⟩ := deleting_iff.mp hid
    cases hs
    rcases List.mem_or_eq_of_mem_set hx with hx | rfl
    · exact deleting_iff.mpr ⟨attempt, claimedAt, deletions, hstage, x, hx, hxid, hxs⟩
    · cases hxs
  exact
    { inFlight := hadvanced.inFlight
      deleted := by
        intro row hrow hk
        split at hk
        next =>
          rcases List.mem_cons.mp hk with he | hk
          · -- the row of the object was held by this very delete
            have hu' := List.mem_of_getElem? hu
            have hd' := List.mem_of_getElem? hd
            obtain ⟨hkey, _, _⟩ := (h.uploads u hu').deletions _ _ _ hstage d hd'
            rw [h.keyed row hrow, hkey] at he
            have hid := buildSessionAttachmentObjectKey_inj he
            refine hh.inFlight u hu' row hrow (deleting_iff.mpr ?_)
            exact ⟨attempt, claimedAt, deletions, hstage, d, hd', hid.symm, hsettled⟩
          · exact hh.deleted row hrow hk
        next => exact hh.deleted row hrow hk }

theorem Held.step (h : Registered sessionId s) (hh : Held s) (hok : ReleasesKept s a) {t : State}
    (hstep : s.step sessionId a = some t) : Held t := by
  cases a with
  | start record =>
    simp only [State.step] at hstep
    split at hstep
    next => cases hstep
    next =>
      cases hstep
      exact
        { inFlight := by
            intro u hu row hrow hd
            rcases List.mem_append.mp hu with hu | hu
            · exact hh.inFlight u hu row hrow hd
            · rw [List.mem_singleton] at hu
              subst hu
              cases hd
          deleted := hh.deleted }
  | register i =>
    simp only [State.step] at hstep
    split at hstep
    next u hu =>
      split at hstep
      next attempt _ hstage =>
        cases hstep
        exact hh.register h hok hu hstage
      next => cases hstep
    next => cases hstep
  | delete i k outcome =>
    simp only [State.step] at hstep
    split at hstep
    next u hu =>
      split at hstep
      next attempt claimedAt deletions hstage =>
        split at hstep
        next d hd =>
          split at hstep
          next hsettled =>
            cases hstep
            exact hh.delete h hu hstage hd hsettled outcome _
          next => cases hstep
        next => cases hstep
      next => cases hstep
    next => cases hstep
  | sendCompletion i =>
    simp only [State.step] at hstep
    split at hstep
    next u hu =>
      split at hstep
      next attempt claimedAt deletions _ hstage =>
        split at hstep
        next =>
          cases hstep
          exact
            { inFlight := by
                intro v hv row hrow hd
                dsimp only at hv
                rcases mem_of_mem_advance hv with hv | hv
                · exact hh.inFlight v hv row hrow hd
                · cases hv
                  cases hd
              deleted := hh.deleted }
        next => cases hstep
      next => cases hstep
    next => cases hstep
  | completed i =>
    simp only [State.step] at hstep
    split at hstep
    next u hu =>
      split at hstep
      next attempt command _ hstage =>
        cases hstep
        have ht := hh.table hok (stepped_complete s _ (executes_completed hu hstage))
        refine ht.advance hu ?_
        intro v hv id hid
        unfold afterCompletion at hv
        split at hv
        next => cases hv
        next =>
          split at hv
          next =>
            cases hv
            cases hid
          next => cases hv
      next => cases hstep
    next => cases hstep
  | repeated k =>
    obtain ⟨command, hc, rfl⟩ := Option.map_eq_some_iff.mp hstep
    exact hh.table hok (stepped_complete s (.repeated k) hc)
  | put i =>
    simp only [State.step] at hstep
    split at hstep
    next u hu =>
      split at hstep
      next =>
        cases hstep
        exact hh.advance hu fun _ hv => by cases hv
      next => cases hstep
    next => cases hstep
  | crash i =>
    obtain ⟨u, hu, rfl⟩ := Option.map_eq_some_iff.mp hstep
    refine hh.advance hu ?_
    intro v hv id hid
    cases hv
    exact hid
  | createMessage messageId ids =>
    cases hstep
    exact hh.table hok (stepped_claim s (.createMessage messageId ids) messageId ids)
  | cancelMessage messageId =>
    cases hstep
    exact hh.table hok (stepped_release s (.cancelMessage messageId) messageId)
  | tick now =>
    simp only [State.step] at hstep
    split at hstep
    next =>
      cases hstep
      exact ⟨hh.inFlight, hh.deleted⟩
    next => cases hstep

/-! ## Every run -/

/-- The registry's part of the property: a row is never both claimed by a message and by a cleanup;
it disappears only when its object's deletion was acknowledged under the claim it carries; a message
gets all of its attachments or none; and the limits hold. -/
structure RegistrySafe (sessionId : Text) (s : State) : Prop where
  exclusive : ∀ row ∈ s.attachments.rows, row.message_id = none ∨ row.cleanup_claimed_at = none
  acknowledged : ∀ a t, s.step sessionId a = some t → ∀ row ∈ s.attachments.rows,
    t.attachments.get? row.id = none →
      ∃ claimedAt, row.cleanup_claimed_at = some claimedAt ∧ (row.id, claimedAt) ∈ s.acknowledged
  allOrNone : ∀ messageId attachmentIds t,
    s.step sessionId (.createMessage messageId attachmentIds) = some t →
      t = s ∨ ∀ id ∈ attachmentIds, ∃ row, s.attachments.get? id = some row ∧
        row.unclaimed = true ∧
        t.attachments.get? id = some { row with message_id := some messageId }
  count : (getTotals s.attachments).count ≤ SESSION_ATTACHMENT_LIMIT_PER_SESSION
  bytes : (getTotals s.attachments).totalBytes ≤ SESSION_ATTACHMENT_TOTAL_BYTES_PER_SESSION

/-- The object of an attachment that a message refers to has not been deleted. -/
def ObjectsSpared (s : State) : Prop :=
  ∀ row ∈ s.attachments.rows, row.message_id ≠ none → row.object_key ∉ s.deleted

theorem Registered.safe (h : Registered sessionId s) : RegistrySafe sessionId s where
  exclusive := h.exclusive
  acknowledged a t hstep row hrow hnone := by
    obtain ⟨command, hc, hid, hclaim⟩ := gone_step hstep hrow hnone
    exact ⟨command.cleanupClaimedAt, hclaim, h.sent command (h.executes_sent hc) row.id hid⟩
  allOrNone messageId ids t hstep := by
    cases hstep
    cases hc : claimForMessage s.attachments messageId ids with
    | none => exact .inl rfl
    | some t' =>
      right
      intro id hid
      exact claimForMessage_all hc hid
  count := h.count
  bytes := h.bytes

/-- **No message points at a deleted attachment.** In every timely run the registry keeps its part;
and in every timely run whose releases keep to rows whose objects are there, no object that a
message refers to is deleted, before or after. -/
theorem attachments_kept (sessionId : Text) (now : Int) :
    (∀ s, (storageSystem sessionId).Reachable Timely (.initial now) s →
      RegistrySafe sessionId s) ∧
    ∀ s, (storageSystem sessionId).Reachable (fun s a => Timely s a ∧ ReleasesKept s a)
      (.initial now) s → ObjectsSpared s := by
  refine ⟨?_, ?_⟩
  · intro s h
    have hr : Registered sessionId s :=
      h.inv (Registered sessionId) (.initial sessionId now) fun _ _ _ hr _ hstep => hr.step hstep
    exact hr.safe
  · intro s h
    have hh : Registered sessionId s ∧ Held s :=
      h.inv (fun s => Registered sessionId s ∧ Held s)
        ⟨.initial sessionId now, .initial now⟩
        fun _ _ _ hh hok hstep => ⟨hh.1.step hstep, hh.2.step hh.1 hok.2 hstep⟩
    intro row hrow hm hdeleted
    rcases hh.1.exclusive row hrow with he | he
    · exact hm he
    · exact hh.2.deleted row hrow hdeleted he

/-- One attachment recorded at 0, stale a day later. -/
def sampleRecord (id : Char) : RecordAttachmentCommand where
  attachmentId := [id]
  mimeType := ['p', 'n', 'g']
  sizeBytes := 1

/-- A stale attachment is swept, and another one is given to a message. -/
theorem attachments_kept_swept : ∃ s,
    (storageSystem ['s']).Reachable (fun s a => Timely s a ∧ ReleasesKept s a) (.initial 0) s ∧
      s.deleted ≠ [] ∧ s.attachments.rows.any (·.message_id.isSome) = true ∧
      RegistrySafe ['s'] s ∧ ObjectsSpared s := by
  have hrun : ((storageSystem ['s']).run (fun s a => Timely s a ∧ ReleasesKept s a) (.initial 0)
      [.start (sampleRecord 'a'), .register 0, .put 0, .tick 86400001, .start (sampleRecord 'b'),
        .register 0, .delete 0 0 .fulfilled, .sendCompletion 0, .completed 0, .register 0, .put 0,
        .createMessage ['m'] [['b']]]).any (fun s =>
          decide (s.deleted ≠ []) && s.attachments.rows.any (·.message_id.isSome)) = true := by
    decide +kernel
  obtain ⟨s, hs, hp⟩ := (Option.any_eq_true _ _).mp hrun
  rw [Bool.and_eq_true, decide_eq_true_eq] at hp
  have hreach := System.run_reachable hs
  refine ⟨s, hreach, hp.1, hp.2, (attachments_kept ['s'] 0).1 s ?_, (attachments_kept ['s'] 0).2 s
    hreach⟩
  exact hreach.mono fun _ _ hok => hok.1

/-- **A release can hand out what was deleted.** The delete of a stale attachment takes effect but
is rejected; its claim is released, and a message takes the attachment. -/
theorem released_after_delete :
    ∃ s, (storageSystem ['s']).Reachable Timely (.initial 0) s ∧ ¬ ObjectsSpared s := by
  have hrun : ((storageSystem ['s']).run Timely (.initial 0)
      [.start (sampleRecord 'a'), .register 0, .put 0, .tick 86400001, .start (sampleRecord 'b'),
        .register 0, .delete 0 0 .rejectedAfterEffect, .sendCompletion 0, .completed 0,
        .createMessage ['m'] [['a']]]).any (fun s =>
          s.attachments.rows.any fun row => row.message_id.isSome ∧ row.object_key ∈ s.deleted) =
            true := by
    decide +kernel
  obtain ⟨s, hs, hp⟩ := (Option.any_eq_true _ _).mp hrun
  obtain ⟨row, hrow, hbad⟩ := List.any_eq_true.mp hp
  obtain ⟨hm, hdeleted⟩ := of_decide_eq_true hbad
  refine ⟨s, System.run_reachable hs, ?_⟩
  intro hspared
  exact hspared row hrow (Option.isSome_iff_ne_none.mp hm) hdeleted

end BackgroundAgents.Attachments

import BackgroundAgents.Lib.Grouping
import BackgroundAgents.Memory.Listing

/-!
# Pages and chunks

The two orders of rows agree, for ids are ASCII (`precedes_iff`), and they tie no two rows
(`untied`). So the rows of a chunk may be cut to the end of the page before they are merged
(`mergedRows_runs`), and a page whose ids are selected first is the page (`page_eq`).
`Runs` says that a call ends with a value and binds no more than a statement may.
-/

namespace BackgroundAgents.Memory.Listing

open StableSort

/-! ## Ids -/

theorem encodePoint_ascii {n : Nat} (h : n < 0x80) :
    (Utf8.encodePoint n).map UInt8.toNat = [n] := by
  have hbyte : n = (UInt8.ofNat n).toNat := (Utf8.toNat_ofNat (by omega)).symm
  have hascii : (UInt8.ofNat n).toNat < 0x80 := hbyte ▸ h
  have hpoint := Utf8.encodePoint_ascii hascii
  rw [← hbyte] at hpoint
  rw [hpoint, List.map_cons, ← hbyte, List.map_nil]

theorem units_ascii {c : Char} (h : c.toNat < 0x80) :
    (Utf16.units c).map UInt16.toNat = [c.toNat] := by
  have hplain : c.toNat < 0x10000 := by omega
  unfold Utf16.units
  rw [if_pos hplain, List.map_cons, Utf16.toNat_ofNat hplain, List.map_nil]

theorem Id.bytes_eq (id : Id) : id.bytes = id.1.map Char.toNat := by
  obtain ⟨cs, h⟩ := id
  show ((cs.map Char.toNat).flatMap Utf8.encodePoint).map UInt8.toNat = _
  induction cs with
  | nil => rfl
  | cons c cs ih =>
    rw [List.forall_mem_cons] at h
    rw [List.map_cons, List.flatMap_cons, List.map_append, encodePoint_ascii h.1, ih h.2]
    rfl

theorem Id.units_eq (id : Id) : id.units = id.1.map Char.toNat := by
  obtain ⟨cs, h⟩ := id
  show (cs.flatMap Utf16.units).map UInt16.toNat = _
  induction cs with
  | nil => rfl
  | cons c cs ih =>
    rw [List.forall_mem_cons] at h
    rw [List.flatMap_cons, List.map_append, units_ascii h.1, ih h.2]
    rfl

theorem Id.bytes_injective : Function.Injective Id.bytes := by
  intro a b h
  rw [Id.bytes_eq, Id.bytes_eq] at h
  exact Subtype.ext (List.map_injective_iff.mpr (fun _ _ => Char.toNat_inj.mp) h)

/-! ## The orders of rows -/

instance {α : Type} (record : α → MemoryRow) : Std.Total (By record) where
  total a b := by
    unfold By Before
    have hcomm := Lexicographic.compare_comm (record a).id.bytes (record b).id.bytes
    omega

instance {α : Type} (record : α → MemoryRow) : IsTrans α (By record) where
  trans a b c := by
    unfold By Before
    have htrans := @Lexicographic.compare_trans (record a).id.bytes (record b).id.bytes
      (record c).id.bytes
    omega

instance : Std.Total Before := inferInstanceAs (Std.Total (By id))

instance : IsTrans MemoryRow Before := inferInstanceAs (IsTrans MemoryRow (By id))

theorem id_of_tied {α : Type} {record : α → MemoryRow} {a b : α} (h : Tied (By record) a b) :
    (record a).id = (record b).id := by
  unfold Tied By Before at h
  have hcomm := Lexicographic.compare_comm (record a).id.bytes (record b).id.bytes
  exact Id.bytes_injective (Lexicographic.eq_of_compare (by omega))

theorem precedes_iff (a b : ListedRow) : Precedes a b ↔ Before a.m b.m := by
  unfold Precedes comparator Before
  rw [Id.units_eq, Id.units_eq, ← Id.bytes_eq, ← Id.bytes_eq]
  split
  next => omega
  next =>
    split
    next => omega
    next => split <;> omega

/-! ## Records and their revisions -/

section
variable {db : Db}

theorem mem_currentMemory {row : CurrentMemory} : row ∈ db.currentMemory ↔
    row.m ∈ db.memories.rows ∧ row.r ∈ db.memory_revisions.rows ∧
      some row.r.id = row.m.current_revision_id ∧ row.r.memory_id = row.m.id := by
  unfold Db.currentMemory
  rw [List.mem_flatMap]
  constructor
  · intro ⟨m, hm, hrow⟩
    obtain ⟨r, hr, rfl⟩ := List.mem_map.mp hrow
    rw [List.mem_filter, decide_eq_true_eq] at hr
    exact ⟨hm, hr.1, hr.2⟩
  · intro ⟨hm, hr, hjoin⟩
    refine ⟨row.m, hm, List.mem_map.mpr ⟨row.r, ?_, rfl⟩⟩
    rw [List.mem_filter, decide_eq_true_eq]
    exact ⟨hr, hjoin⟩

theorem eq_of_id {a b : CurrentMemory} (ha : a ∈ db.currentMemory) (hb : b ∈ db.currentMemory)
    (h : a.m.id = b.m.id) : a = b := by
  obtain ⟨hm, hr, hjoin, _⟩ := mem_currentMemory.mp ha
  obtain ⟨hm', hr', hjoin', _⟩ := mem_currentMemory.mp hb
  have hsame : a.m = b.m := Table.eq_of_key hm hm' h
  rw [hsame, ← hjoin'] at hjoin
  have hrevision : a.r = b.r := Table.eq_of_key hr hr' (Option.some.inj hjoin)
  cases a
  cases b
  congr

theorem untied {a b : CurrentMemory} (ha : a ∈ db.currentMemory) (hb : b ∈ db.currentMemory)
    (h : Tied (By CurrentMemory.m) a b) : a = b := eq_of_id ha hb (id_of_tied h)

/-- A record is joined to its current revision alone. -/
theorem revisions_of_memory {m : MemoryRow} (hm : m ∈ db.memories.rows) :
    ∃ r, (db.memory_revisions.rows.filter fun r =>
      some r.id = m.current_revision_id ∧ r.memory_id = m.id) = [r] := by
  obtain ⟨r, hr, hcurrent, howner⟩ := db.current m hm
  refine ⟨r, ?_⟩
  have hnodup : (db.memory_revisions.rows.filter fun r =>
      some r.id = m.current_revision_id ∧ r.memory_id = m.id).Nodup :=
    (List.Nodup.of_map _ db.memory_revisions.nodup).filter _
  have hall : ∀ s ∈ db.memory_revisions.rows.filter (fun r =>
      some r.id = m.current_revision_id ∧ r.memory_id = m.id), s = r := by
    intro s hs
    rw [List.mem_filter, decide_eq_true_eq] at hs
    exact Table.eq_of_key hs.1 hr (Option.some.inj (hs.2.1.trans hcurrent))
  have hmem : r ∈ db.memory_revisions.rows.filter fun r =>
      some r.id = m.current_revision_id ∧ r.memory_id = m.id := by
    rw [List.mem_filter, decide_eq_true_eq]
    exact ⟨hr, hcurrent.symm, howner⟩
  rw [List.eq_replicate_of_mem hall] at hnodup hmem ⊢
  rw [List.nodup_replicate] at hnodup
  have hpos := List.length_pos_of_mem hmem
  rw [List.length_replicate] at hpos
  rw [Nat.le_antisymm hnodup hpos, List.replicate_one]

theorem memories_of_currentMemory (db : Db) :
    db.currentMemory.map CurrentMemory.m = db.memories.rows := by
  unfold Db.currentMemory
  rw [List.map_flatMap]
  have hone : ∀ m ∈ db.memories.rows,
      ((db.memory_revisions.rows.filter fun r =>
        some r.id = m.current_revision_id ∧ r.memory_id = m.id).map
          (CurrentMemory.mk m)).map CurrentMemory.m = [m] := by
    intro m hm
    obtain ⟨r, hr⟩ := revisions_of_memory hm
    rw [hr]
    rfl
  rw [List.flatMap_congr hone, List.flatMap_singleton']

theorem nodup_ids (db : Db) : (db.currentMemory.map fun row => row.m.id).Nodup := by
  have hids := db.memories.nodup
  rw [← memories_of_currentMemory db, List.map_map] at hids
  exact hids

/-! ## The page by its ids -/

/-- A join with ids that are all distinct keeps the rows with these ids. -/
theorem join_ids {ids : List Id} (h : ids.Nodup) : ∀ rows : List CurrentMemory,
    (rows.flatMap fun row => (ids.filter (· = row.m.id)).map fun _ => row) =
      rows.filter fun row => row.m.id ∈ ids
  | [] => rfl
  | row :: rows => by
    rw [List.flatMap_cons, join_ids h rows, List.filter_cons, List.filter_eq, h.count]
    by_cases hmem : row.m.id ∈ ids
    · rw [if_pos hmem, if_pos (decide_eq_true hmem)]
      rfl
    · rw [if_neg hmem, if_neg (by rw [decide_eq_true_eq]; exact hmem)]
      rfl

/-- The rows of `filter`, in order. -/
def ordered (db : Db) (filter : Filter) : List CurrentMemory :=
  (db.currentMemory.filter filter.holds).insertionSort (By CurrentMemory.m)

theorem ordered_subset (db : Db) (filter : Filter) : ordered db filter ⊆ db.currentMemory := by
  intro row h
  rw [ordered, List.mem_insertionSort] at h
  exact (List.mem_filter.mp h).1

theorem pageIds_eq (db : Db) (filter : Filter) (limit offset : Nat) :
    db.pageIds filter limit offset =
      (((ordered db filter).drop offset).take limit).map fun row => row.m.id := by
  have hrows : (if filter.patterns.length ≠ 0 then
      (db.currentMemory.filter filter.holds).map CurrentMemory.m
    else db.memories.rows.filter fun m =>
      (inPartitions filter.partitions).holds m && m.status = filter.status) =
      (db.currentMemory.filter filter.holds).map CurrentMemory.m := by
    split
    next => rfl
    next hnone =>
      rw [← memories_of_currentMemory db, List.filter_map]
      refine congrArg (List.map CurrentMemory.m) (List.filter_congr fun row _ => ?_)
      unfold Filter.holds revisionMatchesAllTerms
      rw [if_neg hnone, Bool.and_true]
      rfl
  unfold Db.pageIds
  simp only [hrows]
  rw [← List.map_insertionSort (By CurrentMemory.m) Before CurrentMemory.m _
    fun _ _ _ _ => Iff.rfl, ← List.map_drop, ← List.map_take, List.map_map]
  rfl

/-- Selecting the ids of a page first gives the page. -/
theorem page_eq (db : Db) (filter : Filter) (limit offset : Nat) :
    db.page filter limit offset = ((ordered db filter).drop offset).take limit := by
  have hsub : (((ordered db filter).drop offset).take limit).Sublist (ordered db filter) :=
    (List.take_sublist _ _).trans (List.drop_sublist _ _)
  have hinside : ∀ row ∈ ((ordered db filter).drop offset).take limit, row ∈ db.currentMemory :=
    fun row h => ordered_subset db filter (hsub.subset h)
  have hfiltered : (db.currentMemory.filter filter.holds).Sublist db.currentMemory :=
    List.filter_sublist
  have hnodup : ((ordered db filter).map fun row => row.m.id).Nodup :=
    (((List.perm_insertionSort _ _).map _).nodup_iff).mpr
      (List.Nodup.sublist (hfiltered.map _) (nodup_ids db))
  have hids : (db.pageIds filter limit offset).Nodup := by
    rw [pageIds_eq]
    exact List.Nodup.sublist (hsub.map _) hnodup
  have hsorted : (((ordered db filter).drop offset).take limit).Pairwise (By CurrentMemory.m) :=
    (List.pairwise_insertionSort _ _).sublist hsub
  unfold Db.page
  rw [join_ids hids]
  refine Eq.trans (insertionSort_perm ?_ ?_) hsorted.insertionSort_eq
  · refine (List.perm_ext_iff_of_nodup (List.Nodup.filter _ (List.Nodup.of_map _ (nodup_ids db)))
      (List.Nodup.sublist hsub (List.Nodup.of_map _ hnodup))).mpr fun row => ?_
    rw [List.mem_filter, decide_eq_true_eq, pageIds_eq]
    constructor
    · intro ⟨hrow, hid⟩
      obtain ⟨other, hother, hsame⟩ := List.mem_map.mp hid
      rwa [← eq_of_id (hinside other hother) hrow hsame]
    · intro hrow
      exact ⟨hinside row hrow, List.mem_map_of_mem hrow⟩
  · intro a ha b hb
    exact untied (List.mem_filter.mp ha).1 (List.mem_filter.mp hb).1

/-! ## Partitions -/

theorem partitionKey_injective {p q : MemoryPartition} (htype : partitionType p = partitionType q)
    (hkey : partitionKey p = partitionKey q) : p = q := by
  cases p <;> cases q <;> try cases htype
  next => exact congrArg _ (String.toList_inj.mp hkey)
  next a b =>
    have hnumber : Nat.ofDigitChars 10 (Nat.toDigits 10 a) 0 =
        Nat.ofDigitChars 10 (Nat.toDigits 10 b) 0 :=
      congrArg (fun cs => Nat.ofDigitChars 10 cs 0) hkey
    rw [Nat.ofDigitChars_toDigits (by omega) (by omega),
      Nat.ofDigitChars_toDigits (by omega) (by omega)] at hnumber
    exact congrArg _ hnumber
  next => exact congrArg _ (String.toList_inj.mp hkey)

theorem partitionPredicate_iff {p : MemoryPartition} {m : MemoryRow} :
    (partitionPredicate p).holds m = true ↔ p = partitionFromColumns m.columns := by
  have htype : m.columns.partition_type = partitionType (partitionFromColumns m.columns) := by
    cases m.columns <;> rfl
  have hkey : m.columns.partition_key = partitionKey (partitionFromColumns m.columns) := by
    cases m.columns <;> rfl
  unfold partitionPredicate
  rw [Bool.and_eq_true, decide_eq_true_eq, decide_eq_true_eq, htype, hkey]
  constructor
  · intro ⟨ht, hk⟩
    exact partitionKey_injective ht.symm hk.symm
  · intro h
    rw [h]
    exact ⟨rfl, rfl⟩

theorem inPartitions_iff {ps : List MemoryPartition} {m : MemoryRow} :
    (inPartitions ps).holds m = true ↔ partitionFromColumns m.columns ∈ ps := by
  unfold inPartitions SqlFragment.any
  rw [List.any_eq_true]
  constructor
  · intro ⟨fragment, hmem, h⟩
    obtain ⟨p, hp, rfl⟩ := List.mem_map.mp hmem
    exact partitionPredicate_iff.mp h ▸ hp
  · intro h
    exact ⟨_, List.mem_map_of_mem h, partitionPredicate_iff.mpr rfl⟩

/-- What a filter asks besides the partition. -/
def MemoryListOptions.wanted (options : MemoryListOptions) (row : CurrentMemory) : Bool :=
  row.m.status = options.status &&
    (revisionMatchesAllTerms (options.terms.map likeContains)).holds row.r

theorem filter_holds (options : MemoryListOptions) (rows : List CurrentMemory)
    (ps : List MemoryPartition) : rows.filter (options.filter ps).holds =
      (rows.filter options.wanted).filter fun row => partitionFromColumns row.m.columns ∈ ps := by
  rw [List.filter_filter]
  refine List.filter_congr fun row _ => ?_
  have hpartitions : (inPartitions ps).holds row.m =
      decide (partitionFromColumns row.m.columns ∈ ps) :=
    Bool.eq_iff_iff.mpr (inPartitions_iff.trans decide_eq_true_iff.symm)
  unfold Filter.holds MemoryListOptions.wanted
  rw [← hpartitions, Bool.and_assoc]
  rfl

/-- The rows of distinct partitions are those of each, one partition after the other. -/
theorem filter_partitions (options : MemoryListOptions) (rows : List CurrentMemory)
    {ps : List MemoryPartition} (h : ps.Nodup) : (rows.filter (options.filter ps).holds).Perm
      (ps.flatMap fun p => rows.filter (options.filter [p]).holds) := by
  rw [filter_holds]
  refine (Grouping.filter_mem_perm _ h _).trans (List.Perm.of_eq ?_)
  refine List.flatMap_congr fun p _ => ?_
  rw [filter_holds]
  refine List.filter_congr fun row _ => ?_
  rw [decide_eq_decide, List.mem_singleton]

end

end BackgroundAgents.Memory.Listing

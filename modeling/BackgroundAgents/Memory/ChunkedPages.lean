import BackgroundAgents.Memory.ListingLaws

/-!
# A page does not depend on chunks

`listPartitions_runs`: whatever the number of partitions, the call returns the page of the
single query, and no statement it prepares binds more than it may. The loops are read as
lists of slices (`slices_loop`); the merge keeps the first rows of the partitions seen, to the
end of the page (`merged_eq`).
-/

namespace BackgroundAgents.Memory.Listing

open StableSort

/-! ## Loops over slices -/

section
variable {α : Type} {step : Nat}

theorem slice_append (l : List α) {a b c : Nat} (hab : a ≤ b) (hbc : b ≤ c) :
    slice l a b ++ slice l b c = slice l a c := by
  have hdrop : l.drop b = (l.drop a).drop (b - a) := by
    rw [List.drop_drop]
    exact congrArg (l.drop ·) (by omega)
  have hlength : c - a = (b - a) + (c - b) := by omega
  unfold slice
  rw [hlength, List.take_add, hdrop]

theorem slice_empty (l : List α) {a b : Nat} (h : b ≤ a) : slice l a b = [] := by
  unfold slice
  rw [Nat.sub_eq_zero_of_le h, List.take_zero]

/-- Beyond the end there is nothing to slice. -/
theorem slice_end (l : List α) (a b : Nat) : slice l a b = slice l a (min b l.length) := by
  unfold slice
  by_cases h : b ≤ l.length
  · rw [Nat.min_eq_left h]
  · rw [Nat.min_eq_right (by omega), List.take_of_length_le (by rw [List.length_drop]; omega),
      List.take_of_length_le (by rw [List.length_drop])]

theorem slices_indices (hstep : 0 < step) (l : List α) : ∀ {fuel first last : Nat},
    last - first ≤ fuel →
    ((indices step fuel first last).flatMap fun i => slice l i (min (i + step) last)) =
      slice l first last
  | 0, _, _, h => (slice_empty l (by omega)).symm
  | fuel + 1, first, last, h => by
    rw [indices]
    split
    next hlt =>
      rw [List.flatMap_cons, slices_indices hstep l (by omega)]
      by_cases hend : first + step ≤ last
      · rw [Nat.min_eq_left hend, slice_append l (by omega) hend]
      · rw [Nat.min_eq_right (by omega), @slice_empty α l (first + step) last (by omega),
          List.append_nil]
    next => rw [slice_empty l (by omega), List.flatMap_nil]

theorem slices_loop (hstep : 0 < step) (l : List α) (first last : Nat) :
    ((loop step first last).flatMap fun i => slice l i (min (i + step) last)) =
      slice l first last := slices_indices hstep l (Nat.le_refl _)

theorem mem_indices : ∀ {fuel first last i : Nat}, i ∈ indices step fuel first last →
    i < last ∧ ∃ k, i = first + step * k
  | 0, _, _, _, h => absurd h List.not_mem_nil
  | fuel + 1, first, last, i, h => by
    rw [indices] at h
    split at h
    next hlt =>
      obtain rfl | h := List.mem_cons.mp h
      · exact ⟨hlt, 0, by rw [Nat.mul_zero, Nat.add_zero]⟩
      · obtain ⟨hi, k, rfl⟩ := mem_indices h
        exact ⟨hi, k + 1, by rw [Nat.mul_add, Nat.mul_one]; omega⟩
    next => exact absurd h List.not_mem_nil

/-- The slices of a whole list. -/
theorem slices_whole (hstep : 0 < step) (l : List α) :
    ((loop step 0 l.length).flatMap fun i => slice l i (i + step)) = l := by
  have hslices : ∀ i ∈ loop step 0 l.length,
      slice l i (i + step) = slice l i (min (i + step) l.length) := fun i _ => slice_end l i _
  rw [List.flatMap_congr hslices, slices_loop hstep]
  unfold slice
  rw [List.drop_zero, Nat.sub_zero, List.take_length]

/-- The slices of a batch of `n` of them. -/
theorem slices_batch (hstep : 0 < step) (l : List α) (n start : Nat) :
    ((loop step start (min (start + step * n) l.length)).flatMap fun i => slice l i (i + step)) =
      slice l start (start + step * n) := by
  have hslices : ∀ i ∈ loop step start (min (start + step * n) l.length),
      slice l i (i + step) = slice l i (min (i + step) (min (start + step * n) l.length)) := by
    intro i hi
    obtain ⟨hlt, k, rfl⟩ := mem_indices hi
    have hk : k < n := Nat.lt_of_mul_lt_mul_left (a := step) (by omega)
    have hinside : step * (k + 1) ≤ step * n := Nat.mul_le_mul_left step hk
    rw [Nat.mul_add, Nat.mul_one] at hinside
    have hmin : min (start + step * k + step) (start + step * n) = start + step * k + step :=
      Nat.min_eq_left (by omega)
    rw [← Nat.min_assoc, hmin]
    exact slice_end l _ _
  rw [List.flatMap_congr hslices, slices_loop hstep, ← slice_end]

end

/-! ## What a call returns -/

/-- The call ends with `a`, and what it prepares binds no more than a statement may. -/
def Runs {α : Type} (call : Call α) (a : α) : Prop :=
  ∀ log, ∃ prepared, call log = .ok (a, log ++ prepared) ∧
    ∀ statement ∈ prepared, statement.values.length ≤ MAX_D1_QUERY_PARAMETERS

namespace Runs

variable {α β : Type}

theorem pure (a : α) : Runs (Pure.pure a) a := by
  intro log
  refine ⟨[], ?_, fun _ h => absurd h List.not_mem_nil⟩
  rw [List.append_nil]
  rfl

theorem bind {call : Call α} {f : α → Call β} {a : α} {b : β} (h : Runs call a)
    (hf : Runs (f a) b) : Runs (call >>= f) b := by
  intro log
  obtain ⟨first, hcall, hfirst⟩ := h log
  obtain ⟨second, hnext, hsecond⟩ := hf (log ++ first)
  refine ⟨first ++ second, ?_, ?_⟩
  · show (call log).bind (fun x => f x.1 x.2) = _
    rw [hcall, ← List.append_assoc]
    exact hnext
  · intro statement hmem
    exact (List.mem_append.mp hmem).elim (hfirst statement) (hsecond statement)

theorem prepareSql {statement : Statement}
    (h : statement.values.length ≤ MAX_D1_QUERY_PARAMETERS) :
    Runs (Listing.prepareSql statement) () := by
  intro log
  unfold Listing.prepareSql
  rw [if_neg (Nat.not_lt.mpr h)]
  refine ⟨[statement], rfl, fun s hs => ?_⟩
  rw [List.mem_singleton.mp hs]
  exact h

theorem forM {l : List α} {f : α → Call Unit} (h : ∀ x ∈ l, Runs (f x) ()) :
    Runs (l.forM f) () := by
  induction l with
  | nil => exact pure ()
  | cons x l ih =>
    rw [List.forall_mem_cons] at h
    exact bind h.1 (ih h.2)

theorem foldlM {f : β → α → Call β} {g : β → α → β} :
    ∀ {l : List α} {b : β}, (∀ b, ∀ x ∈ l, Runs (f b x) (g b x)) →
      Runs (l.foldlM f b) (l.foldl g b)
  | [], b, _ => pure b
  | x :: l, b, h => by
    rw [List.foldlM_cons]
    exact bind (h b x List.mem_cons_self)
      (foldlM fun b y hy => h b y (List.mem_cons_of_mem x hy))

theorem mapM {f : α → Call β} {g : α → β} :
    ∀ {l : List α}, (∀ x ∈ l, Runs (f x) (g x)) → Runs (l.mapM f) (l.map g)
  | [], _ => pure []
  | x :: l, h => by
    rw [List.forall_mem_cons] at h
    rw [List.mapM_cons, List.map_cons]
    exact bind h.1 (bind (mapM h.2) (pure _))

end Runs

/-! ## Parameters -/

theorem length_inPartitions (ps : List MemoryPartition) :
    (inPartitions ps).values.length = 2 * ps.length := by
  unfold inPartitions SqlFragment.any
  rw [List.length_flatMap, List.map_map]
  induction ps with
  | nil => rfl
  | cons p ps ih =>
    rw [List.map_cons, List.sum_cons, ih, List.length_cons]
    show 2 + _ = _
    omega

section
variable {options : MemoryListOptions} {partitions : List MemoryPartition}

theorem length_values : ((options.filter partitions).values.length : Int) =
    2 * partitions.length + 1 +
      (revisionMatchesAllTerms (options.terms.map likeContains)).values.length := by
  unfold Filter.values
  rw [List.length_append, List.length_append, length_inPartitions]
  show ((2 * partitions.length + 1 + _ : Nat) : Int) = _
  push_cast
  rfl

/-- A chunk fits, with its status and two more values. -/
theorem length_values_le (h : (partitions.length : Int) ≤ chunkSize options) :
    (options.filter partitions).values.length + 2 ≤ MAX_D1_QUERY_PARAMETERS := by
  have hvalues := @length_values options partitions
  unfold chunkSize at h
  omega

end

/-! ## The merge -/

section
variable (db : Db) {partitions : List MemoryPartition} {options : MemoryListOptions}

/-- The rows of `CURRENT_MEMORY` that a list of partitions is to show. -/
def matching (options : MemoryListOptions) (ps : List MemoryPartition) : List CurrentMemory :=
  db.currentMemory.filter (options.filter ps).holds

theorem matching_subset (ps : List MemoryPartition) : matching db options ps ⊆ db.currentMemory :=
  List.filter_sublist.subset

/-- The chunks of one batch. -/
def chunks (partitions : List MemoryPartition) (size batchStart : Nat) :
    List (List MemoryPartition) :=
  (loop size batchStart (min (batchStart + size * LIST_CHUNKS_PER_BATCH) partitions.length)).map
    fun start => slice partitions start (start + size)

theorem batchRows_runs {size batchStart : Nat} (hsize : (size : Int) ≤ chunkSize options) :
    Runs (batchRows db partitions options size batchStart)
      (((chunks partitions size batchStart).flatMap fun ps =>
        top (By CurrentMemory.m) (options.offset + options.limit) (matching db options ps)).map
          CurrentMemory.listed) := by
  unfold batchRows chunks
  refine Runs.bind (Runs.forM fun filter hfilter => Runs.prepareSql ?_) ?_
  · obtain ⟨start, _, rfl⟩ := List.mem_map.mp hfilter
    have hlength : ((slice partitions start (start + size)).length : Int) ≤ chunkSize options := by
      refine Int.le_trans (Int.ofNat_le.mpr ?_) hsize
      refine Nat.le_trans (List.length_take_le _ _) ?_
      omega
    have hfits := length_values_le hlength
    unfold Statement.values
    rw [List.length_append]
    exact Nat.le_of_succ_le hfits
  · rw [List.map_flatMap, List.flatMap_map, List.flatMap_map]
    exact Runs.pure _

/-- The rows kept after the chunks `seen`. -/
def kept (options : MemoryListOptions) (seen : List (List MemoryPartition)) :
    List CurrentMemory :=
  top (By CurrentMemory.m) (options.offset + options.limit)
    (seen.flatMap (matching db options))

theorem untied_parts (seen : List (List MemoryPartition)) :
    ∀ a ∈ seen.flatMap (matching db options), ∀ b ∈ seen.flatMap (matching db options),
      Tied (By CurrentMemory.m) a b → a = b := by
  have hinside : seen.flatMap (matching db options) ⊆ db.currentMemory := by
    intro a ha
    obtain ⟨ps, _, hmem⟩ := List.mem_flatMap.mp ha
    exact matching_subset db ps hmem
  exact fun a ha b hb => untied (hinside ha) (hinside hb)

/-- One round of the merge adds the chunks of its batch. -/
theorem kept_append (seen batch : List (List MemoryPartition)) :
    top (By CurrentMemory.m) (options.offset + options.limit)
        (kept db options seen ++ batch.flatMap fun ps =>
          top (By CurrentMemory.m) (options.offset + options.limit) (matching db options ps)) =
      kept db options (seen ++ batch) := by
  have huntied := @untied_parts db options (seen ++ batch)
  have hbatch : (batch.flatMap fun ps =>
      top (By CurrentMemory.m) (options.offset + options.limit) (matching db options ps)) =
      (batch.map (matching db options)).flatMap
        (top (By CurrentMemory.m) (options.offset + options.limit)) := by
    rw [List.flatMap_map]
  have hcut : ∀ a ∈ seen.flatMap (matching db options) ++ (batch.map (matching db options)).flatMap
      (top (By CurrentMemory.m) (options.offset + options.limit)),
      a ∈ (seen ++ batch).flatMap (matching db options) := by
    intro a ha
    rw [List.flatMap_append]
    rw [List.mem_append] at ha ⊢
    refine ha.imp_right fun h => ?_
    obtain ⟨rows, hrows, hmem⟩ := List.mem_flatMap.mp h
    obtain ⟨ps, hps, rfl⟩ := List.mem_map.mp hrows
    exact List.mem_flatMap.mpr ⟨ps, hps, top_subset _ _ hmem⟩
  unfold kept
  rw [hbatch, top_top_append _ fun a ha b hb => huntied a (hcut a ha) b (hcut b hb)]
  rw [List.flatMap_append, @List.flatMap_def _ _ batch] at huntied ⊢
  exact top_append_flatMap _ huntied

/-- The loop of the batches keeps the first rows of all their chunks. -/
theorem fold_kept (batches : List (List (List MemoryPartition))) :
    ∀ seen : List (List MemoryPartition),
    batches.foldl (fun rows batch => top (By CurrentMemory.m) (options.offset + options.limit)
        (rows ++ batch.flatMap fun ps =>
          top (By CurrentMemory.m) (options.offset + options.limit) (matching db options ps)))
      (kept db options seen) = kept db options (seen ++ batches.flatten) := by
  induction batches with
  | nil => exact fun seen => by rw [List.flatten_nil, List.append_nil, List.foldl_nil]
  | cons batch batches ih =>
    intro seen
    rw [List.foldl_cons, kept_append, ih, List.flatten_cons, List.append_assoc]

/-- All the chunks, batch by batch. -/
def allChunks (partitions : List MemoryPartition) (size : Nat) : List (List MemoryPartition) :=
  ((loop (size * LIST_CHUNKS_PER_BATCH) 0 partitions.length).map (chunks partitions size)).flatten

variable {size : Nat}

theorem flatten_allChunks (hsize : 0 < size) : (allChunks partitions size).flatten = partitions := by
  have hbatch : ∀ start ∈ loop (size * LIST_CHUNKS_PER_BATCH) 0 partitions.length,
      (chunks partitions size start).flatMap id =
        slice partitions start (start + size * LIST_CHUNKS_PER_BATCH) := by
    intro start _
    unfold chunks
    rw [List.flatMap_map]
    exact slices_batch hsize partitions LIST_CHUNKS_PER_BATCH start
  unfold allChunks
  rw [← List.flatMap_def, ← List.flatMap_id, List.flatMap_assoc, List.flatMap_congr hbatch]
  exact slices_whole (Nat.mul_pos hsize (by decide)) partitions

theorem allChunks_sublist {chunk : List MemoryPartition} (h : chunk ∈ allChunks partitions size) :
    chunk.Sublist partitions := by
  obtain ⟨batch, hbatch, hmem⟩ := List.mem_flatten.mp h
  obtain ⟨start, _, rfl⟩ := List.mem_map.mp hbatch
  obtain ⟨first, _, rfl⟩ := List.mem_map.mp hmem
  exact (List.take_sublist _ _).trans (List.drop_sublist _ _)

theorem kept_allChunks (hsize : 0 < size) (hnodup : partitions.Nodup) :
    kept db options (allChunks partitions size) =
      (ordered db (options.filter partitions)).take (options.offset + options.limit) := by
  refine top_perm ?_ (untied_parts db _) _
  have hchunks : ((allChunks partitions size).flatMap (matching db options)).Perm
      ((allChunks partitions size).flatMap fun ps => ps.flatMap fun p => matching db options [p]) :=
    List.Perm.flatMap_left _ fun chunk hchunk =>
      filter_partitions options _ (hnodup.sublist (allChunks_sublist hchunk))
  have hflat : ((allChunks partitions size).flatMap fun ps =>
      ps.flatMap fun p => matching db options [p]) =
      partitions.flatMap fun p => matching db options [p] := by
    conv_rhs => rw [← @flatten_allChunks partitions size hsize]
    rw [← List.flatMap_id, List.flatMap_assoc]
    rfl
  rw [hflat] at hchunks
  exact hchunks.trans (filter_partitions options _ hnodup).symm

theorem mergedRows_runs (hsize : 0 < size) (hfits : (size : Int) ≤ chunkSize options)
    (hnodup : partitions.Nodup) : Runs (mergedRows db partitions options size)
      (((ordered db (options.filter partitions)).take (options.offset + options.limit)).map
        CurrentMemory.listed) := by
  have hround : ∀ (rows : List CurrentMemory) (batch : List (List MemoryPartition)),
      top Precedes (options.offset + options.limit) (rows.map CurrentMemory.listed ++
        (batch.flatMap fun ps => top (By CurrentMemory.m) (options.offset + options.limit)
          (matching db options ps)).map CurrentMemory.listed) =
      (top (By CurrentMemory.m) (options.offset + options.limit) (rows ++
        batch.flatMap fun ps => top (By CurrentMemory.m) (options.offset + options.limit)
          (matching db options ps))).map CurrentMemory.listed := by
    intro rows batch
    rw [← List.map_append]
    exact top_map (fun a b => (precedes_iff a.listed b.listed).symm) _ _
  have hrun : Runs (mergedRows db partitions options size) _ :=
    Runs.foldlM fun rows start _ => Runs.bind (batchRows_runs db hfits) (Runs.pure _)
  have hempty : kept db options [] = [] := by
    unfold kept top
    rw [List.flatMap_nil, List.insertionSort_nil, List.take_nil]
  have hfold := @fold_kept db options
    ((loop (size * LIST_CHUNKS_PER_BATCH) 0 partitions.length).map (chunks partitions size)) []
  rw [hempty, List.nil_append, List.foldl_map] at hfold
  have hmap := @List.foldl_hom _ _ _ (List.map CurrentMemory.listed)
    (fun rows start => top (By CurrentMemory.m) (options.offset + options.limit) (rows ++
      (chunks partitions size start).flatMap fun ps =>
        top (By CurrentMemory.m) (options.offset + options.limit) (matching db options ps)))
    (fun rows start => top Precedes (options.offset + options.limit) (rows ++
      ((chunks partitions size start).flatMap fun ps =>
        top (By CurrentMemory.m) (options.offset + options.limit) (matching db options ps)).map
          CurrentMemory.listed))
    (loop (size * LIST_CHUNKS_PER_BATCH) 0 partitions.length) []
    fun rows start => hround rows (chunks partitions size start)
  rw [hfold] at hmap
  rw [← kept_allChunks db hsize hnodup]
  exact hmap ▸ hrun

/-! ## The bodies -/

/-- A list of entries that agree on a key, looked up there. -/
theorem lookup_of_agree {κ β : Type} [DecidableEq κ] {k : κ} {b : β} : ∀ {entries : List (κ × β)},
    (∀ e ∈ entries, e.1 = k → e.2 = b) → (∃ e ∈ entries, e.1 = k) → entries.lookup k = some b
  | [], _, h => absurd h.choose_spec.1 List.not_mem_nil
  | (k', b') :: entries, hagree, h => by
    rw [List.forall_mem_cons] at hagree
    rw [List.lookup_cons]
    by_cases hk : k' = k
    · rw [beq_iff_eq.mpr hk.symm, ← hagree.1 hk]
    · rw [beq_eq_false_iff_ne.mpr (Ne.symm hk)]
      refine lookup_of_agree hagree.2 ?_
      obtain ⟨e, he, hkey⟩ := h
      exact ⟨e, (List.mem_cons.mp he).resolve_left fun heq =>
        hk ((congrArg Prod.fst heq).symm.trans hkey), hkey⟩

theorem mem_bodies {ids : List Id} {e : Id × List Char} : e ∈ db.bodies ids ↔
    ∃ r ∈ db.memory_revisions.rows, r.id ∈ ids ∧ e = (r.id, r.content) := by
  unfold Db.bodies
  rw [List.mem_map]
  constructor
  · intro ⟨r, hr, he⟩
    rw [List.mem_filter, decide_eq_true_eq] at hr
    exact ⟨r, hr.1, hr.2, he.symm⟩
  · intro ⟨r, hr, hid, he⟩
    refine ⟨r, ?_, he.symm⟩
    rw [List.mem_filter, decide_eq_true_eq]
    exact ⟨hr, hid⟩

/-- The ids that the loop of the bodies asks for at `start`. -/
def bodyIds (page : List ListedRow) (start : Nat) : List Id :=
  (slice page start (start + MAX_D1_QUERY_PARAMETERS)).map ListedRow.current_revision_id

/-- The entries read for a page. -/
def entries (page : List ListedRow) : List (Id × List Char) :=
  (loop MAX_D1_QUERY_PARAMETERS 0 page.length).foldl
    (fun bodies start => (db.bodies (bodyIds page start)).reverse ++ bodies) []

theorem readBodies_runs (page : List ListedRow) : Runs (readBodies db page) (entries db page) := by
  refine Runs.foldlM fun bodies start _ => Runs.bind (Runs.prepareSql ?_) (Runs.pure _)
  unfold Statement.values
  rw [List.length_map, List.length_map]
  refine Nat.le_trans (List.length_take_le _ _) ?_
  omega

theorem mem_entries {page : List ListedRow} {e : Id × List Char} : e ∈ entries db page ↔
    ∃ start ∈ loop MAX_D1_QUERY_PARAMETERS 0 page.length, e ∈ db.bodies (bodyIds page start) := by
  have hfold : ∀ (starts : List Nat) (bodies : List (Id × List Char)),
      e ∈ starts.foldl (fun bodies start => (db.bodies (bodyIds page start)).reverse ++ bodies)
        bodies ↔ e ∈ bodies ∨ ∃ start ∈ starts, e ∈ db.bodies (bodyIds page start) := by
    intro starts
    induction starts with
    | nil =>
      intro bodies
      rw [List.foldl_nil]
      exact ⟨Or.inl, fun h => h.resolve_right fun ⟨_, h, _⟩ => List.not_mem_nil h⟩
    | cons start starts ih =>
      intro bodies
      rw [List.foldl_cons, ih, List.mem_append, List.mem_reverse, List.exists_mem_cons_iff]
      tauto
  unfold entries
  rw [hfold]
  exact ⟨fun h => h.resolve_left List.not_mem_nil, Or.inr⟩

/-- A row of the page finds its own body. -/
theorem lookup_body {page : List CurrentMemory} (hpage : page ⊆ db.currentMemory)
    {row : CurrentMemory} (h : row ∈ page) :
    (entries db (page.map CurrentMemory.listed)).lookup row.r.id = some row.r.content := by
  have hrevision := (mem_currentMemory.mp (hpage h)).2.1
  refine lookup_of_agree ?_ ⟨(row.r.id, row.r.content), ?_, rfl⟩
  · intro e he hkey
    obtain ⟨start, _, hmem⟩ := (mem_entries db).mp he
    obtain ⟨r, hr, _, rfl⟩ := (mem_bodies db).mp hmem
    rw [Table.eq_of_key hr hrevision hkey]
  · have hslices := @slices_whole _ MAX_D1_QUERY_PARAMETERS (by decide)
      (page.map CurrentMemory.listed)
    have hlisted : row.listed ∈ page.map CurrentMemory.listed := List.mem_map_of_mem h
    rw [← hslices] at hlisted
    obtain ⟨start, hstart, hslice⟩ := List.mem_flatMap.mp hlisted
    exact (mem_entries db).mpr ⟨start, hstart, (mem_bodies db).mpr
      ⟨row.r, hrevision, List.mem_map.mpr ⟨row.listed, hslice, rfl⟩, rfl⟩⟩

theorem withBody_runs {page : List CurrentMemory} (hpage : page ⊆ db.currentMemory)
    {row : CurrentMemory} (h : row ∈ page) :
    Runs (withBody (entries db (page.map CurrentMemory.listed)) row.listed) row.record := by
  have hlookup : (entries db (page.map CurrentMemory.listed)).lookup
      row.listed.current_revision_id = some row.r.content := lookup_body db hpage h
  unfold withBody
  rw [hlookup]
  exact Runs.pure _

end

/-! ## The list -/

theorem singleQuery_eq (db : Db) (filter : Filter) (offset limit : Nat) :
    singleQuery db filter offset limit =
      (((ordered db filter).drop offset).take limit).map CurrentMemory.record := rfl

/-- Whatever the number of the partitions, the list is the page of the single query. -/
theorem listPartitions_runs (db : Db) {partitions : List MemoryPartition}
    {options : MemoryListOptions} (hnodup : partitions.Nodup) (hchunk : 1 ≤ chunkSize options) :
    Runs (listPartitions db partitions options)
      (singleQuery db (options.filter partitions) options.offset options.limit) := by
  rw [singleQuery_eq]
  unfold listPartitions
  by_cases hempty : partitions.length = 0
  · have hnone : ordered db (options.filter partitions) = [] := by
      rw [List.length_eq_zero_iff.mp hempty]
      exact List.perm_nil.mp ((List.perm_insertionSort _ _).trans
        (filter_partitions options _ List.nodup_nil))
    rw [if_pos hempty, hnone, List.drop_nil, List.take_nil]
    exact Runs.pure []
  rw [if_neg hempty]
  by_cases hfast : (partitions.length : Int) ≤ chunkSize options
  · rw [if_pos hfast]
    rw [← page_eq]
    refine Runs.bind (Runs.prepareSql ?_) (Runs.pure _)
    have hfits := length_values_le hfast
    unfold Statement.values
    rw [List.length_append]
    exact hfits
  rw [if_neg hfast, if_neg (by omega)]
  have hsize : ((chunkSize options).toNat : Int) = chunkSize options :=
    Int.toNat_of_nonneg (by omega)
  have hpage : ((ordered db (options.filter partitions)).drop options.offset).take options.limit ⊆
      db.currentMemory := fun row h =>
    ordered_subset db _ (List.mem_of_mem_drop (List.mem_of_mem_take h))
  have hcut : (((ordered db (options.filter partitions)).take
      (options.offset + options.limit)).map CurrentMemory.listed).drop options.offset =
      (((ordered db (options.filter partitions)).drop options.offset).take options.limit).map
        CurrentMemory.listed := by
    rw [← List.map_drop, List.drop_take, Nat.add_sub_cancel_left]
  refine Runs.bind (mergedRows_runs db (by omega) (Int.le_of_eq hsize) hnodup) ?_
  rw [hcut]
  refine Runs.bind (readBodies_runs db _) ?_
  rw [List.mapM_map]
  exact Runs.mapM fun row hrow => withBody_runs db hpage hrow

/-- A list of distinct partitions is the page of the single query, whether or not it is read
in chunks, and no statement binds more than it may. -/
theorem listPartitions_singleQuery (db : Db) (partitions : List MemoryPartition)
    (options : MemoryListOptions) (hnodup : partitions.Nodup) (hchunk : 1 ≤ chunkSize options) :
    ∃ prepared, listPartitions db partitions options [] =
        .ok (singleQuery db (options.filter partitions) options.offset options.limit, prepared) ∧
      ∀ statement ∈ prepared, statement.values.length ≤ MAX_D1_QUERY_PARAMETERS :=
  listPartitions_runs db hnodup hchunk []

def noteId (c : Char) (h : c.toNat < 0x80) : Id :=
  ⟨[c], fun d hd => by
    rw [List.mem_singleton.mp hd]
    exact h⟩

def note (c : Char) (h : c.toNat < 0x80) (repo_id : Nat) (updated_at : Int) : MemoryRow where
  id := noteId c h
  columns := .repository repo_id "acme" "api"
  memory_type := .fact
  status := .active
  archive_kind := none
  archive_note := none
  current_revision_id := some (noteId c h)
  author_kind := .user
  author_user_id := none
  author_session_id := none
  supersedes_memory_id := none
  approved_at := none
  archived_at := none
  created_at := 0
  updated_at

/-- Three notes; the repositories of two are read in one batch, that of the last in another. -/
def notes : Db where
  memories := ⟨[note 'a' (by decide) 3 5, note 'b' (by decide) 60 5, note 'c' (by decide) 199 8],
    by decide +kernel⟩
  memory_revisions := ⟨[⟨noteId 'a' (by decide), noteId 'a' (by decide), 1, "tabs".toList, [], []⟩,
    ⟨noteId 'b' (by decide), noteId 'b' (by decide), 1, "tests".toList, [], []⟩,
    ⟨noteId 'c' (by decide), noteId 'c' (by decide), 1, "deploys".toList, [], []⟩],
    by decide +kernel⟩
  current := by decide +kernel

def secondNote : MemoryListOptions where
  status := .active
  offset := 1
  limit := 1
  terms := []

def repositories : List MemoryPartition := (List.range 200).map .repository

theorem repositories_nodup : repositories.Nodup :=
  List.nodup_range.map fun _ _ h => MemoryPartition.repository.inj h

theorem repositories_listed : (∃ prepared, listPartitions notes repositories secondNote [] =
      .ok (singleQuery notes (secondNote.filter repositories) 1 1, prepared) ∧
        ∀ statement ∈ prepared, statement.values.length ≤ MAX_D1_QUERY_PARAMETERS) ∧
    (singleQuery notes (secondNote.filter repositories) 1 1).map MemoryRecord.title =
      ["tabs".toList] :=
  ⟨listPartitions_singleQuery notes repositories secondNote repositories_nodup (by decide),
    by decide +kernel⟩

end BackgroundAgents.Memory.Listing

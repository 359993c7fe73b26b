import Mathlib.Data.List.Nodup
import Mathlib.Data.List.MinMax
import Mathlib.Data.List.Perm.Basic
import Mathlib.Algebra.BigOperators.Group.List.Basic
import Mathlib.Tactic.Abel

/-!
# Tables with a primary key

A relational table as the list of its rows in insertion order, with the
uniqueness of the primary key as a field: a table that holds one key twice
cannot be built. The operations are the statements a program issues, `get?`
(a lookup by key), `find?` (`SELECT … LIMIT 1`), `insert?` (refused on a
duplicate key), `update` (`UPDATE … SET f WHERE p`), `delete` and `upsert`
(`INSERT … ON CONFLICT DO UPDATE`).

Everything below is read through `get?`: `get?_update`, `get?_delete`,
`get?_insert?` and `get?_upsert` say what each statement does to it, and
`mem_rows_iff` and `find?_some`/`find?_none` take the queries back to it. No
proof about a program then looks at the list.

`Unique` is a partial unique index, `Taken` the conflict an insertion meets on
it; insertions of rows that are not `Taken` and updates that keep the indexed
columns keep it.
-/

namespace BackgroundAgents

/-- Rows in insertion order, no two with one key. -/
structure Table {α κ : Type} (key : α → κ) where
  rows : List α
  nodup : (rows.map key).Nodup

namespace Table

variable {α κ : Type} {key : α → κ}

instance [DecidableEq α] : DecidableEq (Table key) := fun s t =>
  decidable_of_iff (s.rows = t.rows) (by
    cases s
    cases t
    simp)

instance [Repr α] : Repr (Table key) where
  reprPrec t n := reprPrec t.rows n

def empty : Table key where
  rows := []
  nodup := List.nodup_nil

/-- The first row, in insertion order, that meets `p`. -/
def find? (t : Table key) (p : α → Bool) : Option α :=
  t.rows.find? p

/-- How many rows meet `p`. -/
def count (t : Table key) (p : α → Bool) : Nat :=
  t.rows.countP p

/-- The row that meets `p` with the least `f`: `ORDER BY f ASC LIMIT 1`. -/
def first {β : Type} [LinearOrder β] (t : Table key) (p : α → Bool) (f : α → β) : Option α :=
  (t.rows.filter p).argmin f

/-- The row that meets `p` with the greatest `f`: `ORDER BY f DESC LIMIT 1`. -/
def last {β : Type} [LinearOrder β] (t : Table key) (p : α → Bool) (f : α → β) : Option α :=
  (t.rows.filter p).argmax f

/-- Rewrite the rows that meet `p`; the primary key stays. -/
def update (t : Table key) (p : α → Bool) (f : α → α)
    (hf : ∀ r, key (f r) = key r := by intro _; rfl) : Table key where
  rows := t.rows.map fun r => if p r then f r else r
  nodup := by
    have hk : (key ∘ fun r => if p r then f r else r) = key := by
      funext r
      simp only [Function.comp]
      split
      · exact hf r
      · rfl
    rw [List.map_map, hk]
    exact t.nodup

/-- Remove the rows that meet `p`. -/
def delete (t : Table key) (p : α → Bool) : Table key where
  rows := t.rows.filter fun r => !p r
  nodup := t.nodup.sublist (List.filter_sublist.map key)

variable [DecidableEq κ]

/-- The row with primary key `k`. -/
def get? (t : Table key) (k : κ) : Option α :=
  t.find? fun r => key r = k

/-- Append a row, refused when its key is taken. -/
def insert? (t : Table key) (r : α) : Option (Table key) :=
  if h : key r ∈ t.rows.map key then none
  else some
    { rows := t.rows ++ [r]
      nodup := by
        rw [List.map_append, List.nodup_append]
        refine ⟨t.nodup, List.nodup_singleton _, ?_⟩
        intro a ha b hb hab
        simp only [List.map_cons, List.map_nil, List.mem_singleton] at hb
        exact h (hb ▸ hab ▸ ha) }

/-- Append a row, or rewrite the row that holds its key. -/
def upsert (t : Table key) (r : α) (merge : α → α)
    (hm : ∀ r, key (merge r) = key r := by intro _; rfl) : Table key :=
  match t.insert? r with
  | some t' => t'
  | none => t.update (fun old => key old = key r) merge hm

/-! ## Reading through the key -/

variable {r : α}

/-- With unique keys, a row is found by its own. -/
theorem find?_key_of_mem {l : List α} (hl : (l.map key).Nodup) (hr : r ∈ l) :
    l.find? (fun x => key x = key r) = some r := by
  induction l with
  | nil => cases hr
  | cons x xs ih =>
    rw [List.map_cons, List.nodup_cons] at hl
    rcases List.mem_cons.mp hr with rfl | hr
    · simp
    · have hne : key x ≠ key r := fun he => hl.1 (he ▸ List.mem_map_of_mem hr)
      rw [List.find?_cons_of_neg (by simpa using hne)]
      exact ih hl.2 hr

variable {t : Table key}

theorem mem_rows_iff : r ∈ t.rows ↔ t.get? (key r) = some r := by
  constructor
  · exact find?_key_of_mem t.nodup
  · exact List.mem_of_find?_eq_some

variable {k : κ}

theorem key_of_get? (h : t.get? k = some r) : key r = k := by
  simpa using List.find?_some h

theorem mem_of_get? (h : t.get? k = some r) : r ∈ t.rows :=
  List.mem_of_find?_eq_some h

theorem get?_eq_some :
    t.get? k = some r ↔ r ∈ t.rows ∧ key r = k := by
  constructor
  · intro h
    exact ⟨mem_of_get? h, key_of_get? h⟩
  · rintro ⟨hr, rfl⟩
    exact mem_rows_iff.mp hr

/-- Rows with one key are one row. -/
theorem eq_of_key {r s : α} (hr : r ∈ t.rows) (hs : s ∈ t.rows) (h : key r = key s) : r = s := by
  rw [mem_rows_iff] at hr hs
  rw [h, hs] at hr
  exact (Option.some.inj hr).symm

theorem get?_eq_none :
    t.get? k = none ↔ ∀ r ∈ t.rows, key r ≠ k := by
  simp [get?, find?]

theorem find?_some {p : α → Bool} (h : t.find? p = some r) :
    t.get? (key r) = some r ∧ p r = true :=
  ⟨mem_rows_iff.mp (List.mem_of_find?_eq_some h), List.find?_some h⟩

theorem find?_none {p : α → Bool} :
    t.find? p = none ↔ ∀ k r, t.get? k = some r → p r = false := by
  constructor
  · intro h k r hr
    simpa using List.find?_eq_none.mp h r (mem_of_get? hr)
  · intro h
    refine List.find?_eq_none.mpr ?_
    intro r hr
    simp [h _ r (mem_rows_iff.mp hr)]

theorem count_eq_zero {p : α → Bool} :
    t.count p = 0 ↔ ∀ k r, t.get? k = some r → p r = false := by
  rw [count, List.countP_eq_zero]
  constructor
  · intro h k r hr
    simpa using h r (mem_of_get? hr)
  · intro h r hr
    simp [h _ r (mem_rows_iff.mp hr)]

/-- At most one row holds a key. -/
theorem count_key (h : t.get? k = some r) (p : α → Bool) :
    t.count (fun x => decide (key x = k) && p x) = if p r then 1 else 0 := by
  have hcount : ∀ l : List α, (l.map key).Nodup →
      l.countP (fun x => decide (key x = k) && p x) =
        if (l.find? fun x => key x = k).any p then 1 else 0 := by
    intro l
    induction l with
    | nil => simp
    | cons x xs ih =>
      intro hl
      rw [List.map_cons, List.nodup_cons] at hl
      rw [List.countP_cons, ih hl.2, List.find?_cons]
      by_cases hx : key x = k
      · have hnone : xs.find? (fun x => key x = k) = none := by
          refine List.find?_eq_none.mpr ?_
          intro y hy hyk
          rw [decide_eq_true_eq] at hyk
          exact hl.1 (hx ▸ hyk ▸ List.mem_map_of_mem hy)
        simp [hx, hnone]
      · simp [hx]
  rw [count, hcount t.rows t.nodup]
  have hf : t.rows.find? (fun x => key x = k) = some r := h
  rw [hf, Option.any_some]

section Ordered

variable {β : Type} [LinearOrder β] {t : Table key} {p : α → Bool} {f : α → β}

theorem mem_filter_rows : r ∈ t.rows.filter p ↔ t.get? (key r) = some r ∧ p r = true := by
  rw [List.mem_filter, mem_rows_iff]

theorem first_some (h : t.first p f = some r) :
    t.get? (key r) = some r ∧ p r = true ∧
      ∀ k x, t.get? k = some x → p x = true → f r ≤ f x := by
  obtain ⟨hr, hp⟩ := mem_filter_rows.mp (List.argmin_mem h)
  refine ⟨hr, hp, ?_⟩
  intro k x hx hpx
  exact List.le_of_mem_argmin (List.mem_filter.mpr ⟨mem_of_get? hx, hpx⟩) h

theorem first_none :
    t.first p f = none ↔ ∀ k r, t.get? k = some r → p r = false := by
  rw [first, List.argmin_eq_none, List.filter_eq_nil_iff]
  constructor
  · intro h k r hr
    simpa using h r (mem_of_get? hr)
  · intro h r hr
    simp [h _ r (mem_rows_iff.mp hr)]

theorem last_some (h : t.last p f = some r) :
    t.get? (key r) = some r ∧ p r = true ∧
      ∀ k x, t.get? k = some x → p x = true → f x ≤ f r := by
  obtain ⟨hr, hp⟩ := mem_filter_rows.mp (List.argmax_mem h)
  refine ⟨hr, hp, ?_⟩
  intro k x hx hpx
  exact List.le_of_mem_argmax (List.mem_filter.mpr ⟨mem_of_get? hx, hpx⟩) h

theorem last_none :
    t.last p f = none ↔ ∀ k r, t.get? k = some r → p r = false :=
  (first_none (β := βᵒᵈ))

end Ordered

/-! ## What each statement does -/

@[simp] theorem get?_empty (k : κ) : (empty : Table key).get? k = none := rfl

theorem get?_update (t : Table key) (p : α → Bool) (f : α → α) (hf : ∀ r, key (f r) = key r)
    (k : κ) :
    (t.update p f hf).get? k = (t.get? k).map fun r => if p r then f r else r := by
  have hk : ∀ r, key (if p r then f r else r) = key r := by
    intro r
    split
    · exact hf r
    · rfl
  simp only [get?, find?, update, List.find?_map]
  congr 1
  refine congrArg (List.find? · t.rows) ?_
  funext r
  simp [hk]

theorem get?_delete (t : Table key) (p : α → Bool) (k : κ) :
    (t.delete p).get? k = (t.get? k).filter fun r => !p r := by
  cases h : t.get? k with
  | none =>
    rw [get?_eq_none] at h
    refine get?_eq_none.mpr ?_
    intro r hr
    exact h r (List.mem_filter.mp hr).1
  | some r =>
    obtain ⟨hr, rfl⟩ := get?_eq_some.mp h
    cases hp : p r with
    | false =>
      simp only [Option.filter, hp, Bool.not_false, if_true]
      exact mem_rows_iff.mp (List.mem_filter.mpr ⟨hr, by simp [hp]⟩)
    | true =>
      simp only [Option.filter, hp, Bool.not_true, Bool.false_eq_true, if_false]
      refine get?_eq_none.mpr ?_
      intro x hx hxk
      obtain ⟨hx, hpx⟩ := List.mem_filter.mp hx
      have he : some x = some r := by
        rw [← mem_rows_iff.mp hx, hxk, h]
      cases he
      simp [hp] at hpx

theorem insert?_eq_none :
    t.insert? r = none ↔ ∃ x, t.get? (key r) = some x := by
  unfold insert?
  split
  next h =>
    obtain ⟨x, hx, hk⟩ := List.mem_map.mp h
    exact ⟨fun _ => ⟨x, get?_eq_some.mpr ⟨hx, hk⟩⟩, fun _ => rfl⟩
  next h =>
    refine ⟨nofun, ?_⟩
    rintro ⟨x, hx⟩
    exact absurd (key_of_get? hx ▸ List.mem_map_of_mem (mem_of_get? hx)) h

variable {t t' : Table key}

theorem get?_insert? (h : t.insert? r = some t') (k : κ) :
    t'.get? k = if key r = k then some r else t.get? k := by
  unfold insert? at h
  split at h
  next => cases h
  next hnew =>
    cases h
    simp only [get?, find?, List.find?_append]
    split
    next hk =>
      have hn : t.rows.find? (fun x => key x = k) = none := by
        refine List.find?_eq_none.mpr ?_
        intro x hx hxk
        rw [decide_eq_true_eq] at hxk
        exact hnew (hk ▸ hxk ▸ List.mem_map_of_mem hx)
      rw [hn]
      simp [hk]
    next hk =>
      simp [hk]

/-- The primary key of an accepted row was free. -/
theorem get?_of_insert? (h : t.insert? r = some t') :
    t.get? (key r) = none := by
  cases hg : t.get? (key r) with
  | none => rfl
  | some x =>
    rw [insert?_eq_none.mpr ⟨x, hg⟩] at h
    cases h

theorem get?_upsert (t : Table key) (r : α) (merge : α → α) (hm : ∀ r, key (merge r) = key r)
    (k : κ) :
    (t.upsert r merge hm).get? k =
      if key r = k then some (((t.get? k).map merge).getD r) else t.get? k := by
  unfold upsert
  split
  next t' h =>
    rw [get?_insert? h]
    split
    next hk => rw [← hk, get?_of_insert? h]; rfl
    next => rfl
  next h =>
    obtain ⟨x, hx⟩ := insert?_eq_none.mp h
    rw [get?_update]
    split
    next hk =>
      rw [← hk, hx]
      simp [key_of_get? hx]
    next hk =>
      cases hg : t.get? k with
      | none => rfl
      | some y =>
        have hy := key_of_get? hg
        simp only [Option.map_some, decide_eq_true_eq]
        rw [if_neg (by rw [hy]; exact fun he => hk he.symm)]

/-! ## Columns

What a column holds, row by row, and its sum. -/

omit [DecidableEq κ] in
/-- A column that survives a projection holds values of the column projected from. -/
theorem map_filterMap_sublist {α β γ : Type} {f : α → Option β} {g : β → γ} {h : α → γ}
    (hf : ∀ a b, f a = some b → g b = h a) (l : List α) :
    ((l.filterMap f).map g).Sublist (l.map h) := by
  induction l with
  | nil => exact List.Sublist.refl _
  | cons a l ih =>
    rw [List.map_cons, List.filterMap_cons]
    cases hfa : f a with
    | none => exact ih.cons _
    | some b =>
      rw [List.map_cons, hf a b hfa]
      exact ih.cons_cons _

omit [DecidableEq κ] in
/-- An update that keeps a column keeps it row by row. -/
theorem map_rows_update {β : Type} (t : Table key) (p : α → Bool) (f : α → α)
    (hf : ∀ r, key (f r) = key r) (g : α → β) (hg : ∀ r, g (f r) = g r) :
    (t.update p f hf).rows.map g = t.rows.map g := by
  rw [update, List.map_map]
  refine List.map_congr_left ?_
  intro r _
  simp only [Function.comp]
  split
  · exact hg r
  · rfl

/-- A column is looked up in the key's and its own values alone. -/
theorem map_get? {β : Type} (t : Table key) (g : α → β) (k : κ) :
    (t.get? k).map g =
      ((t.rows.map fun r => (key r, g r)).find? fun c => decide (c.1 = k)).map Prod.snd := by
  rw [get?, find?, List.find?_map, Option.map_map]
  rfl

theorem count_insert? (h : t.insert? r = some t') (p : α → Bool) :
    t'.count p = t.count p + if p r then 1 else 0 := by
  unfold insert? at h
  split at h
  next => cases h
  next =>
    cases h
    simp [count, List.countP_append, List.countP_singleton]

/-- An upsert under a key whose rows are not counted leaves the count. -/
theorem count_upsert (t : Table key) (r : α) (merge : α → α) (hm : ∀ r, key (merge r) = key r)
    (p : α → Bool) (hp : ∀ x, key x = key r → p x = false) :
    (t.upsert r merge hm).count p = t.count p := by
  unfold upsert
  split
  next t' h => rw [count_insert? h, hp r rfl]; rfl
  next =>
    rw [count, update, List.countP_map]
    refine List.countP_congr ?_
    intro x _
    simp only [Function.comp]
    split
    next hx =>
      rw [decide_eq_true_eq] at hx
      rw [hp x hx, hp (merge x) ((hm x).trans hx)]
    next => rfl

/-- Rewriting the row under a key moves the column's sum by what that row moves. -/
theorem sum_update_key {β : Type} [AddCommGroup β] (h : t.get? k = some r) (f : α → α)
    (hf : ∀ r, key (f r) = key r) (g : α → β) :
    ((t.update (fun x => key x = k) f hf).rows.map g).sum =
      (t.rows.map g).sum + (g (f r) - g r) := by
  have hsum : ∀ l : List α, (l.map key).Nodup → l.find? (fun x => key x = k) = some r →
      ((l.map fun x => if decide (key x = k) then f x else x).map g).sum =
        (l.map g).sum + (g (f r) - g r) := by
    intro l
    induction l with
    | nil => nofun
    | cons x xs ih =>
      intro hl hfind
      rw [List.map_cons, List.nodup_cons] at hl
      rw [List.find?_cons] at hfind
      by_cases hx : key x = k
      · simp only [hx, decide_true, Option.some.injEq] at hfind
        subst hfind
        have hrest : (xs.map fun y => if decide (key y = k) then f y else y) = xs := by
          refine (List.map_congr_left ?_).trans (List.map_id xs)
          intro y hy
          have hne : key y ≠ k := fun he => hl.1 (hx ▸ he ▸ List.mem_map_of_mem hy)
          simp [hne]
        simp only [List.map_cons, hx, decide_true, if_true, hrest, List.sum_cons]
        abel
      · simp only [hx, decide_false] at hfind
        simp only [List.map_cons, hx, decide_false, Bool.false_eq_true, if_false, List.sum_cons,
          ih hl.2 hfind]
        abel
  exact hsum t.rows t.nodup h

/-! ## Rows and unique indexes -/

omit [DecidableEq κ] in
theorem mem_update {t : Table key} {p : α → Bool} {f : α → α} {hf : ∀ r, key (f r) = key r}
    {x : α} : x ∈ (t.update p f hf).rows ↔ ∃ r ∈ t.rows, (if p r then f r else r) = x :=
  List.mem_map

omit [DecidableEq κ] in
/-- An update that matches no row. -/
theorem update_of_none {t : Table key} {p : α → Bool} {f : α → α} {hf : ∀ r, key (f r) = key r}
    (h : ∀ r ∈ t.rows, p r = false) : t.update p f hf = t := by
  have hrows : (t.rows.map fun r => if p r then f r else r) = t.rows := by
    refine (List.map_congr_left fun r hr => ?_).trans (List.map_id _)
    rw [h r hr]
    rfl
  cases t
  simp only [update, mk.injEq]
  exact hrows

theorem rows_insert? (h : t.insert? r = some t') :
    t'.rows = t.rows ++ [r] := by
  unfold insert? at h
  split at h
  next => cases h
  next =>
    cases h
    rfl

theorem mem_insert? {r x : α} (h : t.insert? r = some t') :
    x ∈ t'.rows ↔ x ∈ t.rows ∨ x = r := by
  rw [rows_insert? h, List.mem_append, List.mem_singleton]

section Unique

variable {ι : Type}

/-- No two rows with one value of `ix`; rows where `ix` is `none` are not indexed. -/
def Unique (t : Table key) (ix : α → Option ι) : Prop :=
  ∀ r ∈ t.rows, ∀ s ∈ t.rows, ∀ k, ix r = some k → ix s = some k → r = s

omit [DecidableEq κ] in
theorem unique_iff {t : Table key} {ix : α → Option ι} :
    (∀ r ∈ t.rows, ∀ s ∈ t.rows, ix r ≠ none → ix r = ix s → r = s) ↔ t.Unique ix := by
  constructor
  · intro h r hr s hs k hrk hsk
    exact h r hr s hs (by rw [hrk]; exact Option.some_ne_none k) (hrk.trans hsk.symm)
  · intro h r hr s hs hne heq
    obtain ⟨k, hk⟩ := Option.ne_none_iff_exists'.mp hne
    exact h r hr s hs k hk (heq ▸ hk)

instance [DecidableEq α] [DecidableEq ι] (t : Table key) (ix : α → Option ι) :
    Decidable (t.Unique ix) :=
  decidable_of_iff _ unique_iff

/-- Another row holds the indexed value of `r`. -/
def Taken (t : Table key) (ix : α → Option ι) (r : α) : Prop :=
  ∃ s ∈ t.rows, ix s ≠ none ∧ ix s = ix r

instance [DecidableEq ι] (t : Table key) (ix : α → Option ι) (r : α) : Decidable (t.Taken ix r) :=
  inferInstanceAs (Decidable (∃ s ∈ t.rows, ix s ≠ none ∧ ix s = ix r))

omit [DecidableEq κ] in
theorem unique_empty (ix : α → Option ι) : (empty : Table key).Unique ix := by
  intro r hr
  cases hr

theorem unique_insert? {ix : α → Option ι} (h : t.Unique ix) (hfree : ¬t.Taken ix r)
    (hi : t.insert? r = some t') : t'.Unique ix := by
  have hnew : ∀ x ∈ t.rows, ∀ k, ix x = some k → ix r ≠ some k := by
    intro x hx k hxk hrk
    exact hfree ⟨x, hx, by simp [hxk], by rw [hxk, hrk]⟩
  intro x hx y hy k hxk hyk
  rcases (mem_insert? hi).mp hx with hx | rfl
  · rcases (mem_insert? hi).mp hy with hy | rfl
    · exact h x hx y hy k hxk hyk
    · exact absurd hyk (hnew x hx k hxk)
  · rcases (mem_insert? hi).mp hy with hy | rfl
    · exact absurd hxk (hnew y hy k hyk)
    · rfl

omit [DecidableEq κ] in
/-- An update that keeps the indexed value of every row keeps the index. -/
theorem unique_update {t : Table key} {ix : α → Option ι} (h : t.Unique ix) (p : α → Bool)
    (f : α → α) (hf : ∀ r, key (f r) = key r) (hix : ∀ r, ix (f r) = ix r) :
    (t.update p f hf).Unique ix := by
  have hsame : ∀ r, ix (if p r then f r else r) = ix r := by
    intro r
    split
    · exact hix r
    · rfl
  intro x hx y hy k hxk hyk
  obtain ⟨r, hr, rfl⟩ := mem_update.mp hx
  obtain ⟨s, hs, rfl⟩ := mem_update.mp hy
  rw [hsame] at hxk hyk
  rw [h r hr s hs k hxk hyk]

end Unique

end Table

end BackgroundAgents

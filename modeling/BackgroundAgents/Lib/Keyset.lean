import Mathlib.Data.List.Sort
import Mathlib.Data.List.Nodup

/-!
# Keyset listings

Rows listed by descending key, the keys unique: `newestFirst` is
`ORDER BY key DESC`. `Descending` is what it produces, and two descending lists
with the same rows are equal (`Descending.ext`), so a listing is determined by
what it holds. The rule for pages is `Descending.mem_after`: what lies below the
key of a listed row is the rest of the listing after it.
-/

namespace BackgroundAgents.Keyset

variable {α κ : Type} [LinearOrder κ] {key : α → κ}

/-- `ORDER BY key DESC` -/
def newestFirst (key : α → κ) (rows : List α) : List α :=
  rows.insertionSort fun a b => key b ≤ key a

/-- Listed by strictly descending key. -/
def Descending (key : α → κ) (rows : List α) : Prop :=
  rows.Pairwise fun a b => key b < key a

variable {rows : List α}

@[simp] theorem mem_newestFirst {a : α} :
    a ∈ newestFirst key rows ↔ a ∈ rows :=
  List.mem_insertionSort _

@[simp] theorem length_newestFirst (rows : List α) :
    (newestFirst key rows).length = rows.length :=
  List.length_insertionSort _ _

theorem newestFirst_descending (h : (rows.map key).Nodup) :
    Descending key (newestFirst key rows) := by
  have htotal : Std.Total fun a b : α => key b ≤ key a := ⟨fun a b => le_total (key b) (key a)⟩
  have htrans : IsTrans α fun a b => key b ≤ key a := ⟨fun _ _ _ hab hbc => le_trans hbc hab⟩
  have hsorted : (newestFirst key rows).Pairwise fun a b => key b ≤ key a :=
    List.pairwise_insertionSort _ rows
  have hdistinct : (newestFirst key rows).Pairwise fun a b => key a ≠ key b := by
    have hperm : (newestFirst key rows).Perm rows := List.perm_insertionSort _ rows
    exact List.pairwise_map.mp ((hperm.map key).nodup_iff.mpr h)
  refine hsorted.imp₂ (fun a b hle hne => ?_) hdistinct
  exact lt_of_le_of_ne hle (Ne.symm hne)

/-- A descending listing is determined by the rows it holds. -/
theorem Descending.ext {l₁ l₂ : List α} (h₁ : Descending key l₁) (h₂ : Descending key l₂)
    (h : ∀ a, a ∈ l₁ ↔ a ∈ l₂) : l₁ = l₂ := by
  have hirrefl : Std.Irrefl fun a b : α => key b < key a := ⟨fun a => lt_irrefl (key a)⟩
  have hanti : Std.Antisymm fun a b : α => key b < key a :=
    ⟨fun a b hab hba => absurd hab (lt_asymm hba)⟩
  exact List.Pairwise.eq_of_mem_iff h₁ h₂ h

/-- **The page rule.** The rows below a listed row are those listed after it. -/
theorem Descending.mem_after {xs ys : List α} {x a : α} (h : Descending key (xs ++ x :: ys)) :
    a ∈ ys ↔ a ∈ xs ++ x :: ys ∧ key a < key x := by
  obtain ⟨-, hys, hcross⟩ := List.pairwise_append.mp h
  have hbelow : ∀ y ∈ ys, key y < key x := (List.pairwise_cons.mp hys).1
  constructor
  · intro ha
    exact ⟨by simp [ha], hbelow a ha⟩
  · rintro ⟨ha, hlt⟩
    rcases List.mem_append.mp ha with ha | ha
    · exact absurd hlt (lt_asymm (hcross a ha x (by simp)))
    · rcases List.mem_cons.mp ha with rfl | ha
      · exact absurd hlt (lt_irrefl _)
      · exact ha

/-- Two orders that list the same rows alike agree on them. -/
theorem Descending.lt_iff {κ' : Type} [LinearOrder κ'] {key' : α → κ'} {l : List α}
    (h : Descending key l) (h' : Descending key' l) {a b : α} (ha : a ∈ l) (hb : b ∈ l) :
    key a < key b ↔ key' a < key' b := by
  have hboth : l.Pairwise fun x y => key y < key x ∧ key' y < key' x := h.and h'
  have hforward : l.Pairwise fun x y => key x < key y ↔ key' x < key' y :=
    hboth.imp fun hlt => iff_of_false (lt_asymm hlt.1) (lt_asymm hlt.2)
  have hbackward : l.Pairwise (flip fun x y => key x < key y ↔ key' x < key' y) :=
    hboth.imp fun hlt => iff_of_true hlt.1 hlt.2
  exact List.Pairwise.forall_of_forall_of_flip (fun x _ => by simp) hforward hbackward ha hb

theorem Descending.filter (h : Descending key rows) (p : α → Bool) :
    Descending key (rows.filter p) :=
  List.Pairwise.filter p h

/-- Selecting rows and listing them commute. -/
theorem newestFirst_filter (h : (rows.map key).Nodup) (p : α → Bool) :
    newestFirst key (rows.filter p) = (newestFirst key rows).filter p := by
  have hfilter : ((rows.filter p).map key).Nodup := h.sublist (List.filter_sublist.map key)
  refine (newestFirst_descending hfilter).ext ((newestFirst_descending h).filter p) ?_
  intro a
  simp

/-- A listed row is among the first `n` where fewer than `n` are above it. -/
theorem Descending.mem_take (h : Descending key rows) {n : Nat} {a : α} :
    a ∈ rows.take n ↔ a ∈ rows ∧ rows.countP (fun b => key a < key b) < n := by
  induction rows generalizing n with
  | nil => simp
  | cons x rows ih =>
    obtain ⟨hx, hrows⟩ := List.pairwise_cons.mp h
    cases n with
    | zero => simp
    | succ n =>
      rw [List.take_succ_cons, List.mem_cons, List.mem_cons, List.countP_cons, ih hrows]
      constructor
      · rintro (rfl | ⟨ha, hcount⟩)
        · have hnone : rows.countP (fun b => key a < key b) = 0 := by
            refine List.countP_eq_zero.mpr ?_
            intro b hb
            simpa using (hx b hb).le
          simp [hnone]
        · refine ⟨Or.inr ha, ?_⟩
          split <;> omega
      · rintro ⟨rfl | ha, hcount⟩
        · exact Or.inl rfl
        · rw [if_pos (by simpa using hx a ha)] at hcount
          exact Or.inr ⟨ha, by omega⟩

/-! ## Following the pages

A listing that is fetched page by page, each page with the cursor of the next
one: `Follows` are the pages that lead from a cursor to the last page. Where a
page holds the rows below its cursor up to a limit, and the key of its last row
as the next cursor if there are more, the pages are the listing cut in pieces
(`Paged.follows`).
-/

/-- The rows below a cursor. -/
def below (key : α → κ) (cursor : Option κ) (rows : List α) : List α :=
  rows.filter fun a => cursor.all fun k => key a < k

@[simp] theorem below_none (rows : List α) : below key none rows = rows :=
  List.filter_eq_self.mpr fun _ _ => rfl

/-- Below a listed row is the rest of the listing. -/
theorem Descending.below_eq {xs ys : List α} {x : α} (h : Descending key (xs ++ x :: ys)) :
    below key (some (key x)) (xs ++ x :: ys) = ys := by
  refine (h.filter _).ext ?_ ?_
  · exact (List.pairwise_cons.mp (List.pairwise_append.mp h).2.1).2
  · intro a
    rw [h.mem_after, List.mem_filter]
    simp

section Pages

variable {π γ β : Type}

/-- The pages from a cursor to the last one, each fetched at the cursor that the one before
it gave. -/
inductive Follows (fetch : Option γ → π → Prop) (next : π → Option γ) :
    Option γ → List π → Prop where
  | last {c : Option γ} {p : π} : fetch c p → next p = none → Follows fetch next c [p]
  | more {c : Option γ} {k : γ} {p : π} {ps : List π} :
    fetch c p → next p = some k → Follows fetch next (some k) ps → Follows fetch next c (p :: ps)

/-- What is fetched at a cursor being determined, so are the pages. -/
theorem Follows.unique {fetch : Option γ → π → Prop} {next : π → Option γ}
    (hfetch : ∀ c p q, fetch c p → fetch c q → p = q) {c : Option γ} {ps qs : List π}
    (hp : Follows fetch next c ps) (hq : Follows fetch next c qs) : ps = qs := by
  induction hp generalizing qs with
  | last hp hnone =>
    cases hq with
    | last hq _ => rw [hfetch _ _ _ hp hq]
    | more hq hsome _ =>
      rw [← hfetch _ _ _ hp hq, hnone] at hsome
      cases hsome
  | more hp hsome _ ih =>
    cases hq with
    | last hq hnone =>
      rw [← hfetch _ _ _ hp hq, hsome] at hnone
      cases hnone
    | more hq hsome' hrest =>
      rw [← hfetch _ _ _ hp hq] at hsome' ⊢
      rw [hsome] at hsome'
      cases hsome'
      rw [ih hrest]

/-- A page holds, as its items, up to `limit` rows of a listing below its cursor, and gives the
key of the last of them as the next cursor if there are more. -/
structure Paged (key : α → κ) (rows : List α) (limit : Nat) (item : α → Option β) (cursorKey : γ → κ)
    (fetch : Option γ → π → Prop) (items : π → List β) (next : π → Option γ) : Prop where
  fetched : ∀ c, ∃ p, fetch c p
  items_eq : ∀ c p, fetch c p →
    items p = ((below key (c.map cursorKey) rows).take limit).filterMap item
  next_eq : ∀ c p, fetch c p →
    (next p).map cursorKey =
      if limit < (below key (c.map cursorKey) rows).length then
        ((below key (c.map cursorKey) rows).take limit).getLast?.map key
      else none

/-- **Every row once.** Following the pages of a listing goes through its rows in their order
and comes to an end. -/
theorem Paged.follows {limit : Nat} {item : α → Option β} {cursorKey : γ → κ}
    {fetch : Option γ → π → Prop} {items : π → List β} {next : π → Option γ}
    (h : Paged key rows limit item cursorKey fetch items next) (hrows : Descending key rows)
    (hlimit : 0 < limit) :
    ∃ ps, Follows fetch next none ps ∧ ps.flatMap items = rows.filterMap item := by
  -- from any cursor, by induction on the rows that are left below it
  have hfrom : ∀ (n : Nat) (c : Option γ) (left : List α), left.length ≤ n →
      below key (c.map cursorKey) rows = left → left <:+ rows →
      ∃ ps, Follows fetch next c ps ∧ ps.flatMap items = left.filterMap item := by
    intro n
    induction n with
    | zero =>
      intro c left hn hbelow _
      obtain ⟨p, hp⟩ := h.fetched c
      have hnil : left = [] := List.length_eq_zero_iff.mp (Nat.le_zero.mp hn)
      have hitems := h.items_eq c p hp
      have hnext := h.next_eq c p hp
      rw [hbelow, hnil] at hitems hnext
      refine ⟨[p], .last hp (Option.map_eq_none_iff.mp hnext), ?_⟩
      rw [List.flatMap_singleton, hitems, hnil, List.take_nil]
    | succ n ih =>
      intro c left hn hbelow hsuffix
      obtain ⟨p, hp⟩ := h.fetched c
      have hitems := h.items_eq c p hp
      have hnext := h.next_eq c p hp
      rw [hbelow] at hitems hnext
      by_cases hmore : limit < left.length
      · rw [if_pos hmore] at hnext
        -- the last row of the page, and what is below it
        obtain ⟨x, hx⟩ : ∃ x, left[limit - 1]? = some x := by
          refine ⟨left[limit - 1], List.getElem?_eq_getElem ?_⟩
          omega
        have hlast : (left.take limit).getLast? = some x := by
          rw [List.getLast?_eq_getElem?, List.length_take, Nat.min_eq_left (Nat.le_of_lt hmore),
            List.getElem?_take, if_pos (by omega), hx]
        rw [hlast, Option.map_some] at hnext
        obtain ⟨k, hk, hkey⟩ := Option.map_eq_some_iff.mp hnext
        obtain ⟨pre, hpre⟩ := hsuffix
        have hsplit : rows = (pre ++ left.take (limit - 1)) ++ x :: left.drop limit := by
          obtain ⟨hlt, hget⟩ := List.getElem?_eq_some_iff.mp hx
          have hdrop := List.drop_eq_getElem_cons hlt
          rw [hget, Nat.sub_add_cancel hlimit] at hdrop
          rw [List.append_assoc, ← hdrop, List.take_append_drop, hpre]
        have hrest : below key ((some k).map cursorKey) rows = left.drop limit := by
          rw [Option.map_some, hkey, hsplit]
          exact Descending.below_eq (hsplit ▸ hrows)
        obtain ⟨ps, hps, hflat⟩ := ih (some k) (left.drop limit)
          (by rw [List.length_drop]; omega) hrest
          ⟨pre ++ left.take limit, by rw [List.append_assoc, List.take_append_drop, hpre]⟩
        refine ⟨p :: ps, .more hp hk hps, ?_⟩
        rw [List.flatMap_cons, hflat, hitems, ← List.filterMap_append, List.take_append_drop]
      · rw [if_neg hmore] at hnext
        refine ⟨[p], .last hp (Option.map_eq_none_iff.mp hnext), ?_⟩
        rw [List.flatMap_singleton, hitems, List.take_of_length_le (Nat.le_of_not_lt hmore)]
  refine hfrom rows.length none rows (Nat.le_refl _) ?_ (List.suffix_refl _)
  rw [Option.map_none, below_none]

end Pages

end BackgroundAgents.Keyset

import Mathlib.Data.List.Basic
import Mathlib.Data.List.Perm.Basic

/-!
# Calls in progress

A list of calls that are under way, of which one at a time takes its next step:
`advance l i next` is the list after call `i` has gone on to `next`, or has ended.
-/

namespace BackgroundAgents

variable {α : Type}

/-- Call `i` goes on to `next`; with `none` it has ended. -/
def advance (l : List α) (i : Nat) : Option α → List α
  | some x => l.set i x
  | none => l.eraseIdx i

variable {l : List α} {i : Nat}

theorem mem_of_mem_advance {next : Option α} {y : α} (h : y ∈ advance l i next) :
    y ∈ l ∨ next = some y := by
  cases next with
  | none => exact .inl (List.mem_of_mem_eraseIdx h)
  | some x =>
    rcases List.mem_or_eq_of_mem_set h with h | rfl
    · exact .inl h
    · exact .inr rfl

theorem mem_advance_self {x y : α} (h : l[i]? = some x) :
    y ∈ advance l i (some y) := by
  obtain ⟨hi, _⟩ := List.getElem?_eq_some_iff.mp h
  exact List.mem_set hi y

/-- The other calls stay where they are. -/
theorem mem_advance_of_mem {o : Option α} {x y : α} (h : l[i]? = some x) (hy : y ∈ l) :
    y = x ∨ y ∈ advance l i o := by
  obtain ⟨hi, rfl⟩ := List.getElem?_eq_some_iff.mp h
  obtain ⟨j, hj, rfl⟩ := List.mem_iff_getElem.mp hy
  by_cases hij : i = j
  · left
    simp [hij]
  · right
    cases o with
    | none =>
      refine List.mem_eraseIdx_iff_getElem.mpr ⟨j, hj, fun he => hij he.symm, rfl⟩
    | some x =>
      refine List.mem_iff_getElem.mpr ⟨j, by simpa [advance] using hj, ?_⟩
      simp [advance, hij]

/-- The calls, with call `i` in front. -/
theorem perm_of_getElem? {x : α} (h : l[i]? = some x) :
    l.Perm (x :: l.eraseIdx i) := by
  obtain ⟨hi, rfl⟩ := List.getElem?_eq_some_iff.mp h
  exact (List.getElem_cons_eraseIdx_perm hi).symm

theorem perm_advance {x : α} (h : l[i]? = some x) (next : Option α) :
    (advance l i next).Perm (next.toList ++ l.eraseIdx i) := by
  cases next with
  | none => exact List.Perm.refl _
  | some y =>
    obtain ⟨hi, -⟩ := List.getElem?_eq_some_iff.mp h
    have hset : (l.set i y)[i]? = some y := by
      rw [List.getElem?_set_self hi]
    have hperm := perm_of_getElem? hset
    rwa [List.eraseIdx_set_eq] at hperm

/-- What the calls map to, before a step of call `i` and after it. -/
theorem filterMap_advance {β : Type} (f : α → Option β) {x : α} (h : l[i]? = some x)
    (next : Option α) :
    (l.filterMap f).Perm ((f x).toList ++ (l.eraseIdx i).filterMap f) ∧
      ((advance l i next).filterMap f).Perm
        ((next.bind f).toList ++ (l.eraseIdx i).filterMap f) := by
  have hcons : ∀ (y : α) (ys : List α), (y :: ys).filterMap f = (f y).toList ++ ys.filterMap f := by
    intro y ys
    cases hy : f y with
    | none => rw [List.filterMap_cons_none hy, Option.toList_none, List.nil_append]
    | some z => rw [List.filterMap_cons_some hy, Option.toList_some, List.singleton_append]
  refine ⟨?_, ?_⟩
  · have hperm := (perm_of_getElem? h).filterMap f
    rwa [hcons] at hperm
  · have hperm := (perm_advance h next).filterMap f
    cases next with
    | none => exact hperm
    | some y => rwa [Option.toList_some, List.singleton_append, hcons] at hperm

theorem advance_subset_of_none {y : α} (h : y ∈ advance l i none) :
    y ∈ l :=
  List.mem_of_mem_eraseIdx h

/-! ## Calls that differ pairwise -/

variable {R : α → α → Prop}

/-- Any call but `i` stands in the relation to it. -/
theorem mem_advance_pairwise (hR : ∀ x y, R x y → R y x) {o : Option α} {x y : α}
    (hl : l.Pairwise R) (h : l[i]? = some x) (hy : y ∈ advance l i o) :
    o = some y ∨ (y ∈ l ∧ R x y) := by
  obtain ⟨hi, rfl⟩ := List.getElem?_eq_some_iff.mp h
  have hother : ∀ j (hj : j < l.length), j ≠ i → R l[i] l[j] := by
    intro j hj hji
    rw [List.pairwise_iff_getElem] at hl
    rcases Nat.lt_or_gt_of_ne hji with hlt | hgt
    · exact hR _ _ (hl j i hj hi hlt)
    · exact hl i j hi hj hgt
  cases o with
  | none =>
    obtain ⟨j, hj, hji, rfl⟩ := List.mem_eraseIdx_iff_getElem.mp hy
    exact .inr ⟨List.getElem_mem hj, hother j hj hji⟩
  | some n =>
    obtain ⟨j, hj, rfl⟩ := List.mem_iff_getElem.mp hy
    have hj' : j < l.length := by simpa [advance] using hj
    by_cases hij : i = j
    · left
      simp [advance, hij]
    · right
      simp only [advance, List.getElem_set_ne hij]
      exact ⟨List.getElem_mem hj', hother j hj' fun he => hij he.symm⟩

/-- The calls still differ when the next stage of call `i` stands where `i` stood, and differs from
every other call of the list. -/
theorem pairwise_advance_mem (hR : ∀ x y, R x y → R y x) {next : Option α} {x : α}
    (hl : l.Pairwise R) (h : l[i]? = some x) (hnext : ∀ n, next = some n → ∀ y ∈ l, R x y → R n y) :
    (advance l i next).Pairwise R := by
  obtain ⟨hi, rfl⟩ := List.getElem?_eq_some_iff.mp h
  cases next with
  | none => exact hl.sublist (List.eraseIdx_sublist l i)
  | some n =>
    have hn := hnext n rfl
    rw [advance, List.pairwise_iff_getElem]
    rw [List.pairwise_iff_getElem] at hl
    intro j k hj hk hjk
    have hj' : j < l.length := by simpa using hj
    have hk' : k < l.length := by simpa using hk
    by_cases hij : i = j
    · subst hij
      rw [List.getElem_set_self, List.getElem_set_ne (by omega)]
      exact hn _ (List.getElem_mem hk') (hl i k hi hk' hjk)
    · rw [List.getElem_set_ne hij]
      by_cases hik : i = k
      · subst hik
        rw [List.getElem_set_self]
        exact hR _ _ (hn _ (List.getElem_mem hj') (hR _ _ (hl j i hj' hi hjk)))
      · rw [List.getElem_set_ne hik]
        exact hl j k hj' hk' hjk

theorem pairwise_advance (hR : ∀ x y, R x y → R y x) {next : Option α} {x : α} (hl : l.Pairwise R)
    (h : l[i]? = some x) (hnext : ∀ n, next = some n → ∀ y, R x y → R n y) :
    (advance l i next).Pairwise R :=
  pairwise_advance_mem hR hl h fun n hn y _ => hnext n hn y

end BackgroundAgents

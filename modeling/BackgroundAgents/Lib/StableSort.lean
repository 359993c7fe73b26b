import Mathlib.Data.List.Sort

/-!
# Stable sorts

A sort by a total preorder that keeps tied elements in their order. The sorted list is
known from the tied elements of each class, in their order (`insertionSort_eq_iff`).
The first elements of a sorted list can be taken piece by piece: a part may be cut to its
own first ones before it is merged with the others (`top_append_flatMap`).
-/

namespace BackgroundAgents.StableSort

variable {α : Type*} (r : α → α → Prop) {a : α} {l l' : List α}

/-- Neither comes before the other. -/
def Tied (a b : α) : Prop := r a b ∧ r b a

instance [DecidableRel r] : DecidableRel (Tied r) :=
  fun a b => inferInstanceAs (Decidable (r a b ∧ r b a))

theorem tied_self {r : α → α → Prop} [Std.Total r] (a : α) : Tied r a a :=
  ⟨Std.Refl.refl a, Std.Refl.refl a⟩

variable [DecidableRel r]

/-- The elements tied with `a`, in their order. -/
def ties (a : α) (l : List α) : List α := l.filter fun b => Tied r a b

variable {r}

theorem mem_ties {b : α} : b ∈ ties r a l ↔ b ∈ l ∧ Tied r a b := by
  unfold ties
  rw [List.mem_filter, decide_eq_true_eq]

variable [Std.Total r]

theorem ties_cons_self (a : α) (l : List α) : ties r a (a :: l) = a :: ties r a l :=
  List.filter_cons_of_pos (decide_eq_true (tied_self a))

/-- Sorted lists with the same ties are the same. -/
theorem eq_of_ties : ∀ {l l' : List α}, l.Pairwise r → l'.Pairwise r →
    (∀ a, ties r a l = ties r a l') → l = l'
  | [], [], _, _, _ => rfl
  | [], b :: l', _, _, h => by
    have hb := h b
    rw [ties_cons_self] at hb
    exact absurd hb (List.cons_ne_nil _ _).symm
  | a :: l, [], _, _, h => by
    have ha := h a
    rw [ties_cons_self] at ha
    exact absurd ha (List.cons_ne_nil _ _)
  | a :: l, b :: l', hl, hl', h => by
    rw [List.pairwise_cons] at hl hl'
    have ha : a ∈ b :: l' := by
      have hmem : a ∈ ties r a (a :: l) := mem_ties.mpr ⟨List.mem_cons_self, tied_self a⟩
      rw [h a] at hmem
      exact (mem_ties.mp hmem).1
    have hb : b ∈ a :: l := by
      have hmem : b ∈ ties r b (b :: l') := mem_ties.mpr ⟨List.mem_cons_self, tied_self b⟩
      rw [← h b] at hmem
      exact (mem_ties.mp hmem).1
    -- both heads are least
    have hab : r a b := by
      obtain rfl | hmem := List.mem_cons.mp hb
      · exact Std.Refl.refl b
      · exact hl.1 b hmem
    have hba : r b a := by
      obtain rfl | hmem := List.mem_cons.mp ha
      · exact Std.Refl.refl a
      · exact hl'.1 a hmem
    have hcons : ties r a (b :: l') = b :: ties r a l' :=
      List.filter_cons_of_pos (decide_eq_true ⟨hab, hba⟩)
    have hfirst := h a
    rw [ties_cons_self, hcons] at hfirst
    obtain ⟨rfl, _⟩ := List.cons.inj hfirst
    refine congrArg (List.cons a) (eq_of_ties hl.2 hl'.2 fun c => ?_)
    have hc := h c
    unfold ties at hc ⊢
    rw [List.filter_cons, List.filter_cons] at hc
    split at hc
    next => exact (List.cons.inj hc).2
    next => exact hc

variable [IsTrans α r]

omit [Std.Total r] in
/-- Sorting moves no tied elements past each other. -/
theorem ties_insertionSort (a : α) (l : List α) : ties r a (l.insertionSort r) = ties r a l := by
  have hsorted : (ties r a l).Pairwise r := by
    refine List.Pairwise.imp_of_mem ?_ (List.pairwise_of_forall fun _ _ => trivial)
    intro b c hb hc _
    exact IsTrans.trans b a c (mem_ties.mp hb).2.2 (mem_ties.mp hc).2.1
  have hsub := List.sublist_insertionSort hsorted List.filter_sublist
  have hfilter := hsub.filter fun b => Tied r a b
  have hsame : (ties r a l).filter (fun b => Tied r a b) = ties r a l :=
    List.filter_eq_self.mpr fun b hb => decide_eq_true (mem_ties.mp hb).2
  rw [hsame] at hfilter
  exact (hfilter.eq_of_length ((List.perm_insertionSort r l).filter _).length_eq.symm).symm

theorem insertionSort_eq_iff :
    l.insertionSort r = l'.insertionSort r ↔ ∀ a, ties r a l = ties r a l' := by
  constructor
  · intro h a
    rw [← ties_insertionSort a l, h, ties_insertionSort]
  · intro h
    refine eq_of_ties (List.pairwise_insertionSort r l) (List.pairwise_insertionSort r l') ?_
    intro a
    rw [ties_insertionSort, ties_insertionSort, h a]

theorem perm_of_ties (h : ∀ a, ties r a l = ties r a l') : l.Perm l' := by
  have hsorted := insertionSort_eq_iff.mpr h
  exact (List.perm_insertionSort r l).symm.trans
    (hsorted ▸ List.perm_insertionSort r l')

/-! ## The first elements -/

/-- Where no two elements are tied, the order in which they come does not matter. -/
theorem insertionSort_perm (h : l.Perm l') (huntied : ∀ a ∈ l, ∀ b ∈ l, Tied r a b → a = b) :
    l.insertionSort r = l'.insertionSort r := by
  refine List.Perm.eq_of_pairwise (fun a b ha hb hab hba => ?_)
    (List.pairwise_insertionSort r l) (List.pairwise_insertionSort r l')
    ((List.perm_insertionSort r l).trans (h.trans (List.perm_insertionSort r l').symm))
  rw [List.mem_insertionSort] at ha hb
  exact huntied a ha b (h.mem_iff.mpr hb) ⟨hab, hba⟩

variable (r) in
/-- `ORDER BY … LIMIT n` -/
def top (n : ℕ) (l : List α) : List α := (l.insertionSort r).take n

omit [Std.Total r] [IsTrans α r] in
theorem take_orderedInsert (a : α) : ∀ (n : ℕ) (l : List α),
    ((l.take n).orderedInsert r a).take n = (l.orderedInsert r a).take n
  | 0, _ => by rw [List.take_zero, List.take_zero]
  | n + 1, [] => by rw [List.take_nil]
  | n + 1, b :: l => by
    rw [List.take_succ_cons, List.orderedInsert_cons, List.orderedInsert_cons]
    split
    next =>
      rw [List.take_succ_cons, List.take_succ_cons]
      cases n with
      | zero => rw [List.take_zero, List.take_zero]
      | succ n => rw [List.take_succ_cons, List.take_succ_cons, List.take_take,
          Nat.min_eq_left (Nat.le_succ n)]
    next => rw [List.take_succ_cons, List.take_succ_cons, take_orderedInsert a n l]

omit [Std.Total r] [IsTrans α r] in
theorem top_cons (a : α) (n : ℕ) (l : List α) :
    top r n (a :: l) = ((top r n l).orderedInsert r a).take n :=
  (take_orderedInsert a n _).symm

theorem top_top (n : ℕ) (l : List α) : top r n (top r n l) = top r n l := by
  have hsorted : (top r n l).Pairwise r :=
    (List.pairwise_insertionSort r l).sublist (List.take_sublist n _)
  unfold top at hsorted ⊢
  rw [hsorted.insertionSort_eq, List.take_take, Nat.min_self]

theorem top_append_top (n : ℕ) (l l' : List α) :
    top r n (l ++ top r n l') = top r n (l ++ l') := by
  induction l with
  | nil => exact top_top n l'
  | cons a l ih => rw [List.cons_append, List.cons_append, top_cons, top_cons, ih]

theorem top_perm (h : l.Perm l') (huntied : ∀ a ∈ l, ∀ b ∈ l, Tied r a b → a = b) (n : ℕ) :
    top r n l = top r n l' := congrArg (List.take n) (insertionSort_perm h huntied)

omit [Std.Total r] [IsTrans α r] in
theorem top_subset (n : ℕ) (l : List α) : top r n l ⊆ l := fun _ ha =>
  (List.mem_insertionSort r).mp (List.mem_of_mem_take ha)

/-- The first part may be cut as well. -/
theorem top_top_append (n : ℕ) (huntied : ∀ a ∈ l ++ l', ∀ b ∈ l ++ l', Tied r a b → a = b) :
    top r n (top r n l ++ l') = top r n (l ++ l') := by
  have hinside : ∀ a ∈ top r n l ++ l', a ∈ l ++ l' := by
    intro a ha
    rw [List.mem_append] at ha ⊢
    exact ha.imp_left fun h => top_subset n l h
  rw [top_perm List.perm_append_comm fun a ha b hb => huntied a (hinside a ha) b (hinside b hb),
    top_append_top]
  exact (top_perm List.perm_append_comm huntied n).symm

/-- Every part may be cut before they are merged. -/
theorem top_append_flatMap (n : ℕ) : ∀ {ls : List (List α)} {l : List α},
    (∀ a ∈ l ++ ls.flatten, ∀ b ∈ l ++ ls.flatten, Tied r a b → a = b) →
    top r n (l ++ ls.flatMap (top r n)) = top r n (l ++ ls.flatten)
  | [], _, _ => rfl
  | x :: ls, l, h => by
    rw [List.flatten_cons] at h
    rw [List.flatMap_cons, List.flatten_cons]
    have hparts : ls.flatMap (top r n) ⊆ ls.flatten := by
      intro a ha
      obtain ⟨part, hpart, hmem⟩ := List.mem_flatMap.mp ha
      exact List.mem_flatten.mpr ⟨part, hpart, top_subset n part hmem⟩
    have hswap : ∀ y : List α, (l ++ (y ++ ls.flatMap (top r n))).Perm
        (l ++ ls.flatMap (top r n) ++ y) := by
      intro y
      rw [List.append_assoc]
      exact List.perm_append_comm.append_left l
    have hinside : ∀ y : List α, y ⊆ x → ∀ a ∈ l ++ (y ++ ls.flatMap (top r n)),
        a ∈ l ++ (x ++ ls.flatten) := by
      intro y hy a ha
      rw [List.mem_append, List.mem_append] at ha ⊢
      exact ha.imp_right fun hr => hr.imp (fun h => hy h) (fun h => hparts h)
    have huntied : ∀ y : List α, y ⊆ x → ∀ a ∈ l ++ (y ++ ls.flatMap (top r n)),
        ∀ b ∈ l ++ (y ++ ls.flatMap (top r n)), Tied r a b → a = b :=
      fun y hy a ha b hb => h a (hinside y hy a ha) b (hinside y hy b hb)
    calc top r n (l ++ (top r n x ++ ls.flatMap (top r n)))
        = top r n (l ++ ls.flatMap (top r n) ++ top r n x) :=
          top_perm (hswap _) (huntied _ (top_subset n x)) n
      _ = top r n (l ++ ls.flatMap (top r n) ++ x) := top_append_top n _ x
      _ = top r n (l ++ (x ++ ls.flatMap (top r n))) :=
          (top_perm (hswap x) (huntied x fun _ h => h) n).symm
      _ = top r n (l ++ (x ++ ls.flatten)) := by
          rw [← List.append_assoc] at h ⊢
          rw [← List.append_assoc]
          exact top_append_flatMap n h

omit [Std.Total r] [IsTrans α r] in
theorem top_map {β : Type*} {s : β → β → Prop} [DecidableRel s] {f : α → β}
    (h : ∀ a b, r a b ↔ s (f a) (f b)) (n : ℕ) (l : List α) :
    top s n (l.map f) = (top r n l).map f := by
  unfold top
  rw [← List.map_insertionSort r s f l fun a _ b _ => h a b, List.map_take]

end BackgroundAgents.StableSort

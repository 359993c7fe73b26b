import Mathlib.Data.List.Nodup

/-!
# Grouping in a map

A map that keeps the order of insertion, filled from a list by appending each
element to the group of its key: `for (const a of list) map.get(key)…push(a)`.
Of a list that comes group by group already, the groups are what it was made of
(`grouped_flatMap`).
-/

namespace BackgroundAgents.Grouping

variable {α κ : Type} [DecidableEq κ] {key : α → κ}

/-- Appends an element to the group of its key, a new one at the end of the map. -/
def push (key : α → κ) (a : α) : List (κ × List α) → List (κ × List α)
  | [] => [(key a, [a])]
  | (k, group) :: rest =>
    if k = key a then (k, group ++ [a]) :: rest else (k, group) :: push key a rest

/-- The entries of the map. -/
def grouped (key : α → κ) (list : List α) : List (κ × List α) :=
  list.foldl (fun groups a => push key a groups) []

theorem mem_push {a b : α} {k : κ} {group : List α} {groups : List (κ × List α)}
    (h : (k, group) ∈ push key a groups) (hb : b ∈ group) :
    b = a ∨ ∃ old, (k, old) ∈ groups ∧ b ∈ old := by
  induction groups with
  | nil =>
    cases List.mem_singleton.mp h
    exact Or.inl (List.mem_singleton.mp hb)
  | cons g rest ih =>
    rw [push] at h
    split at h
    next =>
      rcases List.mem_cons.mp h with h | h
      · cases h
        rcases List.mem_append.mp hb with hb | hb
        · exact Or.inr ⟨g.2, List.mem_cons_self, hb⟩
        · exact Or.inl (List.mem_singleton.mp hb)
      · exact Or.inr ⟨group, List.mem_cons_of_mem _ h, hb⟩
    next =>
      rcases List.mem_cons.mp h with h | h
      · exact Or.inr ⟨group, by rw [h]; exact List.mem_cons_self, hb⟩
      · exact (ih h).imp_right fun h =>
        ⟨h.choose, List.mem_cons_of_mem _ h.choose_spec.1, h.choose_spec.2⟩

/-- The groups hold nothing but elements of the list. -/
theorem mem_of_mem_grouped {b : α} {k : κ} {group list : List α}
    (h : (k, group) ∈ grouped key list) (hb : b ∈ group) : b ∈ list := by
  have hfold : ∀ (list : List α) (init : List (κ × List α)) (k : κ) (group : List α),
      (k, group) ∈ list.foldl (fun groups a => push key a groups) init → b ∈ group →
      b ∈ list ∨ ∃ old, (k, old) ∈ init ∧ b ∈ old := by
    intro list
    induction list with
    | nil => exact fun init k group h hb => Or.inr ⟨group, h, hb⟩
    | cons a list ih =>
      intro init k group h hb
      rcases ih _ k group h hb with hb | ⟨old, hold, hb⟩
      · exact Or.inl (List.mem_cons_of_mem _ hb)
      · rcases mem_push hold hb with rfl | hinit
        · exact Or.inl List.mem_cons_self
        · exact Or.inr hinit
  rcases hfold list [] k group h hb with hb | ⟨_, hold, _⟩
  · exact hb
  · cases hold

/-- Elements of one key that the map has last go to its last group. -/
theorem foldl_push_last {k : κ} (init : List (κ × List α)) (hk : ∀ g ∈ init, g.1 ≠ k)
    (group list : List α) (hlist : ∀ a ∈ list, key a = k) :
    list.foldl (fun groups a => push key a groups) (init ++ [(k, group)]) =
      init ++ [(k, group ++ list)] := by
  have hpush : ∀ (a : α), key a = k → ∀ (init : List (κ × List α)) (group : List α),
      (∀ g ∈ init, g.1 ≠ k) → push key a (init ++ [(k, group)]) = init ++ [(k, group ++ [a])] := by
    intro a ha init group hk
    induction init with
    | nil => simp [push, ha]
    | cons g rest ih =>
      have hne : g.1 ≠ key a := ha ▸ hk g List.mem_cons_self
      have hrest : ∀ g ∈ rest, g.1 ≠ k := fun g hg => hk g (List.mem_cons_of_mem _ hg)
      rw [List.cons_append, push, if_neg hne, ih hrest, List.cons_append]
  induction list generalizing group with
  | nil => simp
  | cons a list ih =>
    rw [List.foldl_cons, hpush a (hlist a List.mem_cons_self) init group hk,
      ih _ fun b hb => hlist b (List.mem_cons_of_mem _ hb), List.append_assoc]
    rfl

/-- An element of a new key opens a group at the end. -/
theorem push_new {a : α} {init : List (κ × List α)} (hk : ∀ g ∈ init, g.1 ≠ key a) :
    push key a init = init ++ [(key a, [a])] := by
  induction init with
  | nil => rfl
  | cons g rest ih =>
    rw [push, if_neg (hk g List.mem_cons_self),
      ih fun g hg => hk g (List.mem_cons_of_mem _ hg), List.cons_append]

/-- **Group by group.** The groups of a list that was put together from nonempty groups of
distinct keys. -/
theorem grouped_flatMap {β : Type} {name : β → κ} {group : β → List α} {bs : List β}
    (hnodup : (bs.map name).Nodup) (hne : ∀ b ∈ bs, group b ≠ [])
    (hkey : ∀ b ∈ bs, ∀ a ∈ group b, key a = name b) :
    grouped key (bs.flatMap group) = bs.map fun b => (name b, group b) := by
  have hfold : ∀ (init : List (κ × List α)), (∀ g ∈ init, ∀ b ∈ bs, g.1 ≠ name b) →
      (bs.flatMap group).foldl (fun groups a => push key a groups) init =
        init ++ bs.map fun b => (name b, group b) := by
    induction bs with
    | nil => simp
    | cons b bs ih =>
      intro init hinit
      rw [List.map_cons, List.nodup_cons] at hnodup
      obtain ⟨a, list, hgroup⟩ := List.exists_cons_of_ne_nil (hne b List.mem_cons_self)
      have hname : ∀ x ∈ group b, key x = name b := hkey b List.mem_cons_self
      have hnew : ∀ g ∈ init, g.1 ≠ name b := fun g hg => hinit g hg b List.mem_cons_self
      have ha : key a = name b := hname a (by rw [hgroup]; exact List.mem_cons_self)
      rw [List.flatMap_cons, List.foldl_append, hgroup, List.foldl_cons,
        push_new (by rw [ha]; exact hnew), ha,
        foldl_push_last init hnew [a] list fun x hx =>
          hname x (by rw [hgroup]; exact List.mem_cons_of_mem _ hx),
        ih hnodup.2 (fun b hb => hne b (List.mem_cons_of_mem _ hb))
          (fun b hb => hkey b (List.mem_cons_of_mem _ hb))]
      · rw [List.map_cons, hgroup, List.append_assoc]
        rfl
      · intro g hg c hc
        rcases List.mem_append.mp hg with hg | hg
        · exact hinit g hg c (List.mem_cons_of_mem _ hc)
        · rw [List.mem_singleton.mp hg]
          exact fun he => hnodup.1 (List.mem_map.mpr ⟨c, hc, he.symm⟩)
  rw [grouped, hfold []]
  · rfl
  · intro g hg
    cases hg

/-- The elements with one of some distinct keys, key by key. -/
theorem filter_mem_perm (key : α → κ) : ∀ {keys : List κ}, keys.Nodup → ∀ list : List α,
    (list.filter fun a => key a ∈ keys).Perm
      (keys.flatMap fun k => list.filter fun a => key a = k)
  | [], _, list => by
    refine List.Perm.of_eq (List.filter_eq_nil_iff.mpr fun a _ h => ?_)
    exact List.not_mem_nil (of_decide_eq_true h)
  | k :: keys, h, list => by
    rw [List.nodup_cons] at h
    have hfirst : (list.filter fun a => key a ∈ k :: keys).filter (fun a => key a = k) =
        list.filter fun a => key a = k := by
      rw [List.filter_filter]
      refine List.filter_congr fun a _ => ?_
      rw [Bool.and_eq_left_iff_imp]
      intro hk
      rw [decide_eq_true_eq] at hk ⊢
      exact hk ▸ List.mem_cons_self
    have hrest : (list.filter fun a => key a ∈ k :: keys).filter (fun a => !decide (key a = k)) =
        list.filter fun a => key a ∈ keys := by
      rw [List.filter_filter]
      refine List.filter_congr fun a _ => Bool.eq_iff_iff.mpr ?_
      rw [Bool.and_eq_true, Bool.not_eq_true', decide_eq_false_iff_not, decide_eq_true_eq,
        decide_eq_true_eq, List.mem_cons]
      constructor
      · intro ⟨hne, hmem⟩
        exact hmem.resolve_left hne
      · intro hmem
        exact ⟨fun heq => h.1 (heq ▸ hmem), Or.inr hmem⟩
    rw [List.flatMap_cons]
    refine (List.filter_append_perm (fun a => decide (key a = k)) _).symm.trans ?_
    rw [hfirst, hrest]
    exact (filter_mem_perm key h.2 list).append_left _

end BackgroundAgents.Grouping

import Mathlib.Algebra.Ring.Nat
import Mathlib.Data.List.Basic
import Mathlib.Data.List.Nodup

/-!
# Dictionaries in insertion order

A dictionary as the list of its entries. Assigning to a key that is there replaces
its value and leaves it in its place, so a dictionary filled from a list holds the
last value given to each key (`get?_ofList`), and is that list when no key comes
twice (`ofList_of_nodup`).
-/

namespace BackgroundAgents.Dict

variable {κ β : Type} [DecidableEq κ]

/-- `d[k] = v` -/
def set (d : List (κ × β)) (k : κ) (v : β) : List (κ × β) :=
  if k ∈ d.map Prod.fst then d.map fun e => if e.1 = k then (k, v) else e
  else d ++ [(k, v)]

/-- `d.get(k)` -/
def get? (d : List (κ × β)) (k : κ) : Option β :=
  (d.find? fun e => e.1 = k).map Prod.snd

/-- The dictionary after the assignments, one after the other. -/
def assign (d : List (κ × β)) (entries : List (κ × β)) : List (κ × β) :=
  entries.foldl (fun d e => set d e.1 e.2) d

def ofList (entries : List (κ × β)) : List (κ × β) := assign [] entries

variable {d : List (κ × β)} {k k' : κ} {v : β}

theorem get?_cons (e : κ × β) (d : List (κ × β)) (k : κ) :
    get? (e :: d) k = if e.1 = k then some e.2 else get? d k := by
  unfold get?
  by_cases h : e.1 = k
  · rw [List.find?_cons, decide_eq_true h, if_pos h]
    rfl
  · rw [List.find?_cons, decide_eq_false h, if_neg h]

theorem get?_of_notMem : ∀ {d : List (κ × β)}, k ∉ d.map Prod.fst → get? d k = none
  | [], _ => rfl
  | e :: d, h => by
    rw [List.map_cons, List.mem_cons, not_or] at h
    rw [get?_cons, if_neg (Ne.symm h.1), get?_of_notMem h.2]

theorem get?_append_singleton : ∀ {d : List (κ × β)}, k ∉ d.map Prod.fst →
    get? (d ++ [(k, v)]) k' = if k = k' then some v else get? d k'
  | [], _ => get?_cons (k, v) [] k'
  | e :: d, h => by
    rw [List.map_cons, List.mem_cons, not_or] at h
    rw [List.cons_append, get?_cons, get?_append_singleton h.2, get?_cons]
    by_cases hk : k = k'
    · rw [if_pos hk, if_neg (hk ▸ Ne.symm h.1)]
      simp [hk]
    · simp only [if_neg hk]

theorem get?_replaced (k k' : κ) (v : β) : ∀ d : List (κ × β),
    get? (d.map fun e => if e.1 = k then (k, v) else e) k' =
      if k = k' ∧ k ∈ d.map Prod.fst then some v else get? d k'
  | [] => by simp
  | e :: d => by
    simp only [List.map_cons, List.mem_cons, get?_cons, get?_replaced k k' v d]
    by_cases he : e.1 = k
    · by_cases hk : k = k'
      · simp [he, hk]
      · simp [he, hk]
    · by_cases hk : k = k'
      · subst hk
        have hmem : (k = e.1 ∨ k ∈ d.map Prod.fst) ↔ k ∈ d.map Prod.fst :=
          or_iff_right (Ne.symm he)
        simp only [if_neg he, hmem]
      · simp [he, hk]

theorem get?_set (d : List (κ × β)) (k k' : κ) (v : β) :
    get? (set d k v) k' = if k = k' then some v else get? d k' := by
  unfold set
  split
  next h =>
    rw [get?_replaced]
    simp only [h, and_true]
  next h => exact get?_append_singleton h

theorem set_cons_self {e : κ × β} (h : e.1 ∉ d.map Prod.fst) (v : β) :
    set (e :: d) e.1 v = (e.1, v) :: d := by
  have hmem : e.1 ∈ (e :: d).map Prod.fst := List.mem_cons_self
  unfold set
  rw [if_pos hmem, List.map_cons, if_pos rfl]
  refine congrArg ((e.1, v) :: ·) ((List.map_congr_left ?_).trans (List.map_id' _))
  intro e' hmem'
  exact if_neg fun hk => h (List.mem_map.mpr ⟨e', hmem', hk⟩)

theorem set_cons_ne {e : κ × β} (h : e.1 ≠ k) (v : β) : set (e :: d) k v = e :: set d k v := by
  have hmem : k ∈ (e :: d).map Prod.fst ↔ k ∈ d.map Prod.fst := by
    rw [List.map_cons, List.mem_cons]
    exact or_iff_right (Ne.symm h)
  unfold set
  by_cases hd : k ∈ d.map Prod.fst
  · rw [if_pos (hmem.mpr hd), if_pos hd, List.map_cons, if_neg h]
  · rw [if_neg (fun hk => hd (hmem.mp hk)), if_neg hd, List.cons_append]

theorem keys_set (d : List (κ × β)) (k : κ) (v : β) :
    (set d k v).map Prod.fst =
      if k ∈ d.map Prod.fst then d.map Prod.fst else d.map Prod.fst ++ [k] := by
  unfold set
  split
  next =>
    rw [List.map_map]
    refine List.map_congr_left ?_
    intro e _
    show (if e.1 = k then (k, v) else e).1 = e.1
    split
    next he => exact he.symm
    next => rfl
  next => rw [List.map_append, List.map_singleton]

theorem nodup_set (h : (d.map Prod.fst).Nodup) (k : κ) (v : β) :
    ((set d k v).map Prod.fst).Nodup := by
  rw [keys_set]
  split
  next => exact h
  next hk => exact List.nodup_append.mpr ⟨h, List.nodup_singleton k, by
    intro a ha b hb he
    rw [List.mem_singleton.mp hb] at he
    exact hk (he ▸ ha)⟩

theorem get?_map {γ : Type} (f : β → γ) (k : κ) : ∀ d : List (κ × β),
    get? (d.map fun e => (e.1, f e.2)) k = (get? d k).map f
  | [] => rfl
  | e :: d => by
    rw [List.map_cons, get?_cons, get?_cons, get?_map f k d]
    by_cases he : e.1 = k
    · rw [if_pos he, if_pos he]
      rfl
    · rw [if_neg he, if_neg he]

theorem map_set {γ : Type} (f : β → γ) (d : List (κ × β)) (k : κ) (v : β) :
    (set d k v).map (fun e => (e.1, f e.2)) = set (d.map fun e => (e.1, f e.2)) k (f v) := by
  have hkeys : (d.map fun e => (e.1, f e.2)).map Prod.fst = d.map Prod.fst := List.map_map
  unfold set
  rw [hkeys]
  split
  next =>
    rw [List.map_map, List.map_map]
    refine List.map_congr_left ?_
    intro e _
    show ((if e.1 = k then (k, v) else e).1, f (if e.1 = k then (k, v) else e).2) =
      if e.1 = k then (k, f v) else (e.1, f e.2)
    split <;> rfl
  next => rw [List.map_append, List.map_singleton]

theorem notMem_of_get? : ∀ {d : List (κ × β)}, get? d k = none → k ∉ d.map Prod.fst
  | [], _ => List.not_mem_nil
  | e :: d, h => by
    rw [get?_cons] at h
    by_cases he : e.1 = k
    · rw [if_pos he] at h
      cases h
    · rw [if_neg he] at h
      rw [List.map_cons, List.mem_cons, not_or]
      exact ⟨Ne.symm he, notMem_of_get? h⟩

theorem set_same (hkeys : (d.map Prod.fst).Nodup) (h : get? d k = some v) : set d k v = d := by
  induction d with
  | nil => cases h
  | cons e d ih =>
    rw [List.map_cons, List.nodup_cons] at hkeys
    rw [get?_cons] at h
    by_cases he : e.1 = k
    · rw [if_pos he] at h
      rw [← he, set_cons_self hkeys.1, ← Option.some.inj h]
    · rw [if_neg he] at h
      rw [set_cons_ne he, ih hkeys.2 h]

/-- Assigning to a key that is there changes a sum by the difference of the values. -/
theorem sum_set (measure : κ × β → Nat) {old : β} (v : β) (hkeys : (d.map Prod.fst).Nodup)
    (h : get? d k = some old) :
    ((set d k v).map measure).sum + measure (k, old) = (d.map measure).sum + measure (k, v) ∧
      (set d k v).length = d.length := by
  induction d with
  | nil => cases h
  | cons e d ih =>
    rw [List.map_cons, List.nodup_cons] at hkeys
    rw [get?_cons] at h
    by_cases he : e.1 = k
    · rw [if_pos he] at h
      obtain rfl : e.2 = old := Option.some.inj h
      have heta : measure (e.1, e.2) = measure e := rfl
      rw [← he, set_cons_self hkeys.1, List.map_cons, List.map_cons, List.sum_cons, List.sum_cons]
      exact ⟨by omega, rfl⟩
    · rw [if_neg he] at h
      obtain ⟨hsum, hlength⟩ := ih hkeys.2 h
      rw [set_cons_ne he, List.map_cons, List.map_cons, List.sum_cons, List.sum_cons,
        List.length_cons, List.length_cons, hlength]
      exact ⟨by omega, rfl⟩

/-- Keys that are not assigned to keep their value. -/
theorem get?_assign_of_notMem : ∀ (entries : List (κ × β)) (d : List (κ × β)),
    k ∉ entries.map Prod.fst → get? (assign d entries) k = get? d k
  | [], _, _ => rfl
  | e :: entries, d, h => by
    rw [List.map_cons, List.mem_cons, not_or] at h
    show get? (assign (set d e.1 e.2) entries) k = get? d k
    rw [get?_assign_of_notMem entries _ h.2, get?_set, if_neg (Ne.symm h.1)]

/-- The last value given to a key is the one it has. -/
theorem get?_ofList (before after : List (κ × β)) (h : k ∉ after.map Prod.fst) :
    get? (ofList (before ++ (k, v) :: after)) k = some v := by
  unfold ofList assign
  rw [List.foldl_append, List.foldl_cons]
  show get? (assign (set _ k v) after) k = some v
  rw [get?_assign_of_notMem after _ h, get?_set, if_pos rfl]

theorem assign_of_nodup : ∀ (entries d : List (κ × β)),
    ((d ++ entries).map Prod.fst).Nodup → assign d entries = d ++ entries
  | [], d, _ => (List.append_nil d).symm
  | e :: entries, d, h => by
    have hnew : e.1 ∉ d.map Prod.fst := by
      rw [List.map_append, List.nodup_append] at h
      exact fun hmem => h.2.2 _ hmem _ (List.mem_map.mpr ⟨e, List.mem_cons_self, rfl⟩) rfl
    show assign (set d e.1 e.2) entries = d ++ e :: entries
    have hset : set d e.1 e.2 = d ++ [e] := if_neg hnew
    rw [hset, assign_of_nodup entries (d ++ [e]) (by rwa [List.append_assoc]),
      List.append_assoc, List.singleton_append]

theorem ofList_of_nodup {entries : List (κ × β)} (h : (entries.map Prod.fst).Nodup) :
    ofList entries = entries :=
  assign_of_nodup entries [] h

end BackgroundAgents.Dict

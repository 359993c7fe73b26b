import Mathlib.Data.List.Basic

/-!
# Comparing texts unit by unit

The comparator of texts that programs write: the difference of the first units that differ,
else of the lengths. It is antisymmetric and transitive, and 0 for equal texts only.
-/

namespace BackgroundAgents.Lexicographic

def compare : List Nat → List Nat → Int
  | x :: xs, y :: ys => if x ≠ y then (x : Int) - y else compare xs ys
  | xs, ys => (xs.length : Int) - ys.length

theorem compare_nil (ys : List Nat) : compare [] ys = -(ys.length : Int) := by
  cases ys with
  | nil => rfl
  | cons y ys =>
    show (0 : Int) - _ = _
    omega

theorem compare_comm : ∀ xs ys : List Nat, compare ys xs = -compare xs ys
  | [], ys => by
    rw [compare_nil]
    cases ys with
    | nil => rfl
    | cons y ys =>
      show _ - (0 : Int) = _
      omega
  | x :: xs, [] => by
    rw [compare_nil]
    show _ = -(_ - (0 : Int))
    omega
  | x :: xs, y :: ys => by
    rw [compare, compare]
    by_cases h : x = y
    · rw [if_neg (not_not.mpr h), if_neg (not_not.mpr h.symm), compare_comm]
    · rw [if_pos h, if_pos (Ne.symm h)]
      omega

theorem eq_of_compare : ∀ {xs ys : List Nat}, compare xs ys = 0 → xs = ys
  | [], ys, h => by
    rw [compare_nil] at h
    exact (List.eq_nil_of_length_eq_zero (by omega)).symm
  | x :: xs, [], h => by
    rw [compare_comm, compare_nil, List.length_cons] at h
    omega
  | x :: xs, y :: ys, h => by
    rw [compare] at h
    split at h
    next hne => exact absurd (by omega) hne
    next he => rw [not_not.mp he, eq_of_compare h]

theorem compare_self (xs : List Nat) : compare xs xs = 0 := by
  have hcomm := compare_comm xs xs
  omega

theorem compare_trans : ∀ {xs ys zs : List Nat}, compare xs ys ≤ 0 → compare ys zs ≤ 0 →
    compare xs zs ≤ 0
  | [], _, zs, _, _ => by
    rw [compare_nil]
    omega
  | x :: xs, [], _, h, _ => by
    rw [compare_comm, compare_nil, List.length_cons] at h
    omega
  | x :: xs, y :: ys, [], _, h => by
    rw [compare_comm, compare_nil, List.length_cons] at h
    omega
  | x :: xs, y :: ys, z :: zs, h, h' => by
    rw [compare] at h h' ⊢
    split at h
    next hxy =>
      split at h'
      next =>
        rw [if_pos (by omega)]
        omega
      next hyz =>
        rw [← not_not.mp hyz, if_pos hxy]
        omega
    next hxy =>
      rw [not_not.mp hxy]
      split at h'
      next hyz =>
        rw [if_pos hyz]
        exact h'
      next hyz =>
        rw [if_neg hyz]
        exact compare_trans h h'

end BackgroundAgents.Lexicographic

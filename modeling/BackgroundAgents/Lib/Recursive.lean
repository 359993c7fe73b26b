import Mathlib.Data.List.Dedup
import Mathlib.Data.List.Perm.Subperm
import Mathlib.Logic.Relation

/-!
# Recursive queries

`WITH RECURSIVE t AS (base UNION SELECT … FROM t JOIN …)`: rows are derived
from the base by joining again and again, each row once, until a round derives
no new one. `withRecursive` is that query, with a number of rounds as fuel, and
`Derived` what it is to compute.

`mem_withRecursive` says that it does, given one round more than there are rows
to derive. A round that is not the last adds a row, so the rounds run out of
rows before they run out (`closed_or_grows`).
-/

namespace BackgroundAgents.Recursive

open Relation

variable {α : Type} [DecidableEq α]

/-- The rows that one more round derives. -/
def fresh (next : α → List α) (seen : List α) : List α :=
  ((seen.flatMap next).filter fun y => y ∉ seen).dedup

def rounds (next : α → List α) : Nat → List α → List α
  | 0, seen => seen
  | n + 1, seen => rounds next n (seen ++ fresh next seen)

/-- The rows of a recursive query, by so many rounds. -/
def withRecursive (fuel : Nat) (base : List α) (next : α → List α) : List α :=
  rounds next fuel base.dedup

omit [DecidableEq α] in
/-- A row that joins lead to from the base. -/
def Derived (base : List α) (next : α → List α) (y : α) : Prop :=
  ∃ x ∈ base, ReflTransGen (fun a b => b ∈ next a) x y

variable {base seen : List α} {next : α → List α} {n : Nat} {x y : α}

theorem mem_fresh : y ∈ fresh next seen ↔ (∃ x ∈ seen, y ∈ next x) ∧ y ∉ seen := by
  simp [fresh]

theorem nodup_round (h : seen.Nodup) : (seen ++ fresh next seen).Nodup := by
  refine List.nodup_append.mpr ⟨h, List.nodup_dedup _, ?_⟩
  intro a ha b hb hab
  exact (mem_fresh.mp hb).2 (hab ▸ ha)

theorem subset_rounds : seen ⊆ rounds next n seen := by
  induction n generalizing seen with
  | zero => exact List.Subset.refl _
  | succ n ih => exact fun x hx => ih (List.mem_append_left _ hx)

theorem nodup_rounds (h : seen.Nodup) : (rounds next n seen).Nodup := by
  induction n generalizing seen with
  | zero => exact h
  | succ n ih => exact ih (nodup_round h)

theorem derived_of_mem_rounds (hseen : ∀ x ∈ seen, Derived base next x)
    (h : y ∈ rounds next n seen) : Derived base next y := by
  induction n generalizing seen with
  | zero => exact hseen y h
  | succ n ih =>
    refine ih ?_ h
    intro x hx
    rcases List.mem_append.mp hx with hx | hx
    · exact hseen x hx
    · obtain ⟨⟨w, hw, hnext⟩, -⟩ := mem_fresh.mp hx
      obtain ⟨b, hb, hpath⟩ := hseen w hw
      exact ⟨b, hb, hpath.tail hnext⟩

omit [DecidableEq α] in
/-- Nothing new can be joined. -/
def Closed (next : α → List α) (seen : List α) : Prop :=
  ∀ x ∈ seen, ∀ y ∈ next x, y ∈ seen

theorem closed_of_fresh (h : fresh next seen = []) : Closed next seen := by
  intro x hx y hy
  by_contra hnew
  have hmem : y ∈ fresh next seen := mem_fresh.mpr ⟨⟨x, hx, hy⟩, hnew⟩
  rw [h] at hmem
  cases hmem

theorem rounds_of_fresh (h : fresh next seen = []) : rounds next n seen = seen := by
  induction n with
  | zero => rfl
  | succ n ih => rw [rounds, h, List.append_nil, ih]

/-- Either the rounds end with nothing to join, or each of them added a row. -/
theorem closed_or_grows : Closed next (rounds next n seen) ∨
    seen.length + n ≤ (rounds next n seen).length := by
  induction n generalizing seen with
  | zero => exact Or.inr (Nat.le_refl _)
  | succ n ih =>
    by_cases hfresh : fresh next seen = []
    · rw [rounds_of_fresh hfresh]
      exact Or.inl (closed_of_fresh hfresh)
    · have hpos := List.length_pos_iff.mpr hfresh
      refine (@ih (seen ++ fresh next seen)).imp_right ?_
      rw [rounds, List.length_append]
      omega

omit [DecidableEq α] in
theorem mem_of_closed (h : Closed next seen) (hbase : base ⊆ seen) (hy : Derived base next y) :
    y ∈ seen := by
  obtain ⟨x, hx, hpath⟩ := hy
  induction hpath with
  | refl => exact hbase hx
  | tail _ hnext ih => exact h _ ih _ hnext

/-- **The recursive query.** It holds the derived rows, where all of them are in a list that
is shorter than its fuel. -/
theorem mem_withRecursive {fuel : Nat} {rowsOf : List α}
    (hrowsOf : ∀ y, Derived base next y → y ∈ rowsOf) (hfuel : rowsOf.length < fuel) :
    y ∈ withRecursive fuel base next ↔ Derived base next y := by
  have hbase : ∀ x ∈ base.dedup, Derived base next x := by
    intro x hx
    exact ⟨x, List.mem_dedup.mp hx, .refl⟩
  constructor
  · exact derived_of_mem_rounds hbase
  · intro hy
    have hbounded : (withRecursive fuel base next).length ≤ rowsOf.length := by
      refine (List.subperm_of_subset (nodup_rounds (List.nodup_dedup base)) ?_).length_le
      exact fun z hz => hrowsOf z (derived_of_mem_rounds hbase hz)
    rcases @closed_or_grows _ _ base.dedup next fuel with hclosed | hgrows
    · refine mem_of_closed hclosed ?_ hy
      exact fun z hz => subset_rounds (List.mem_dedup.mpr hz)
    · rw [withRecursive] at hbounded
      omega

end BackgroundAgents.Recursive

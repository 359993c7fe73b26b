import Mathlib.Data.List.Basic

/-!
# Regular expressions, and rewriting with them

Patterns with at most one capturing group, whose repetitions are of character
classes. `Regex.run` lists the matches at a position in the order in which a
backtracking matcher finds them, so `Regex.exec` takes the first; `Regex.Matches`
is the language of the pattern.

A `Rule` replaces every match by something shorter, in one pass from left to
right. One pass may join what stood around a match into a new one; a `Shrinking`
operation can be repeated until nothing changes (`Shrinking.exhaust`), and what
is left contains no match at all.
-/

namespace BackgroundAgents.Regexes

variable {α : Type}

inductive Regex (α : Type) where
  | one (p : α → Bool)
  | many (p : α → Bool)
  | seq (r s : Regex α)
  | alt (r s : Regex α)
  | opt (r : Regex α)
  | group (r : Regex α)

/-- A match: its text, what its group has captured, and what follows. -/
structure Match (α : Type) where
  text : List α
  group : Option (List α)
  rest : List α

/-- The ways to split off characters of a class, the longest first. -/
def spans (p : α → Bool) : List α → List (List α × List α)
  | [] => [([], [])]
  | a :: t =>
    (if p a then (spans p t).map fun split => (a :: split.1, split.2) else []) ++ [([], a :: t)]

namespace Regex

/-- The texts that a pattern matches as a whole. -/
def Matches : Regex α → List α → Prop
  | one p, t => ∃ a, t = [a] ∧ p a = true
  | many p, t => ∀ a ∈ t, p a = true
  | seq r s, t => ∃ u v, t = u ++ v ∧ r.Matches u ∧ s.Matches v
  | alt r s, t => r.Matches t ∨ s.Matches t
  | opt r, t => t = [] ∨ r.Matches t
  | group r, t => r.Matches t

/-- The matches at the head of a text, in the order of the matcher. -/
def run : Regex α → List α → List (Match α)
  | one p, t =>
    match t with
    | [] => []
    | a :: t => if p a then [{ text := [a], group := none, rest := t }] else []
  | many p, t =>
    (spans p t).map fun split => { text := split.1, group := none, rest := split.2 }
  | seq r s, t =>
    (r.run t).flatMap fun m =>
      (s.run m.rest).map fun n =>
        { text := m.text ++ n.text, group := n.group.or m.group, rest := n.rest }
  | alt r s, t => r.run t ++ s.run t
  | opt r, t => r.run t ++ [{ text := [], group := none, rest := t }]
  | group r, t => (r.run t).map fun m => { m with group := some m.text }

def exec (r : Regex α) (t : List α) : Option (Match α) := (r.run t).head?

/-- Some part of the text is matched. -/
def Contains (r : Regex α) (t : List α) : Prop := ∃ u, u <:+: t ∧ r.Matches u

/-- `[…]+` -/
def plus (p : α → Bool) : Regex α := seq (one p) (many p)

/-- The characters of a text, one after the other, and then a pattern. -/
def lit [DecidableEq α] : List α → Regex α → Regex α
  | [], r => r
  | a :: t, r => seq (one (· = a)) (lit t r)

/-- This text and no other. -/
def exactly [DecidableEq α] (t : List α) : Regex α := lit t (many fun _ => false)

end Regex

theorem mem_spans {p : α → Bool} {u v : List α} :
    ∀ {t : List α}, (u, v) ∈ spans p t ↔ t = u ++ v ∧ ∀ a ∈ u, p a = true
  | [] => by
    rw [spans, List.mem_singleton, Prod.mk.injEq]
    constructor
    · intro h
      obtain ⟨rfl, rfl⟩ := h
      exact ⟨rfl, fun a hmem => absurd hmem List.not_mem_nil⟩
    · intro h
      exact List.append_eq_nil_iff.mp h.1.symm
  | a :: t => by
    rw [spans, List.mem_append, List.mem_singleton, Prod.mk.injEq]
    cases u with
    | nil =>
      constructor
      · intro h
        rcases h with h | h
        · split at h
          · obtain ⟨split, _, he⟩ := List.mem_map.mp h
            cases he
          · cases h
        · exact ⟨h.2.symm, fun a hmem => absurd hmem List.not_mem_nil⟩
      · exact fun h => .inr ⟨rfl, h.1.symm⟩
    | cons b u =>
      constructor
      · intro h
        rcases h with h | h
        · split at h
          next hp =>
            obtain ⟨split, hsplit, he⟩ := List.mem_map.mp h
            cases he
            obtain ⟨rfl, hall⟩ := (mem_spans (p := p)).mp hsplit
            exact ⟨rfl, List.forall_mem_cons.mpr ⟨hp, hall⟩⟩
          next => cases h
        · cases h.1
      · intro h
        obtain ⟨he, hall⟩ := h
        obtain ⟨rfl, rfl⟩ := List.cons.inj he
        obtain ⟨hp, hall⟩ := List.forall_mem_cons.mp hall
        rw [if_pos hp]
        exact .inl (List.mem_map.mpr ⟨(u, v), (mem_spans (p := p)).mpr ⟨rfl, hall⟩, rfl⟩)

namespace Regex

variable {r s : Regex α} {t u v : List α} {m : Match α}

/-- What the matcher finds is in the language, at the head of the text. -/
theorem run_sound : ∀ {r : Regex α} {t : List α} {m : Match α}, m ∈ r.run t →
    t = m.text ++ m.rest ∧ r.Matches m.text
  | one p, [], _, h => by cases h
  | one p, a :: t, m, h => by
    rw [run] at h
    split at h
    next hp =>
      rw [List.mem_singleton.mp h]
      exact ⟨rfl, a, rfl, hp⟩
    next => cases h
  | many p, t, m, h => by
    obtain ⟨split, hsplit, rfl⟩ := List.mem_map.mp h
    exact mem_spans.mp hsplit
  | seq r s, t, m, h => by
    obtain ⟨first, hfirst, h⟩ := List.mem_flatMap.mp h
    obtain ⟨second, hsecond, rfl⟩ := List.mem_map.mp h
    obtain ⟨ht, hr⟩ := run_sound hfirst
    obtain ⟨hrest, hs⟩ := run_sound hsecond
    refine ⟨?_, first.text, second.text, rfl, hr, hs⟩
    rw [ht, hrest, List.append_assoc]
  | alt r s, t, m, h => by
    rcases List.mem_append.mp h with h | h
    · exact ⟨(run_sound h).1, .inl (run_sound h).2⟩
    · exact ⟨(run_sound h).1, .inr (run_sound h).2⟩
  | opt r, t, m, h => by
    rcases List.mem_append.mp h with h | h
    · exact ⟨(run_sound h).1, .inr (run_sound h).2⟩
    · rw [List.mem_singleton.mp h]
      exact ⟨rfl, .inl rfl⟩
  | group r, t, m, h => by
    obtain ⟨inner, hinner, rfl⟩ := List.mem_map.mp h
    show t = inner.text ++ inner.rest ∧ r.Matches inner.text
    exact run_sound hinner

/-- Every text of the language is found, whatever follows it. -/
theorem run_complete : ∀ {r : Regex α} {u : List α} (v : List α), r.Matches u →
    ∃ m ∈ r.run (u ++ v), m.text = u ∧ m.rest = v
  | one p, u, v, h => by
    obtain ⟨a, rfl, hp⟩ := h
    refine ⟨{ text := [a], group := none, rest := v }, ?_, rfl, rfl⟩
    rw [List.singleton_append, run, if_pos hp]
    exact List.mem_singleton_self _
  | many p, u, v, h =>
    ⟨_, List.mem_map.mpr ⟨(u, v), mem_spans.mpr ⟨rfl, h⟩, rfl⟩, rfl, rfl⟩
  | seq r s, u, v, h => by
    obtain ⟨u₁, u₂, rfl, hr, hs⟩ := h
    obtain ⟨first, hfirst, htext, hrest⟩ := run_complete (u₂ ++ v) hr
    obtain ⟨second, hsecond, htext', hrest'⟩ := run_complete v hs
    rw [← hrest] at hsecond
    refine ⟨_, List.mem_flatMap.mpr ⟨first, ?_, List.mem_map.mpr ⟨second, hsecond, rfl⟩⟩, ?_,
      hrest'⟩
    · rwa [List.append_assoc]
    · rw [htext, htext']
  | alt r s, u, v, h => by
    rcases h with h | h
    · obtain ⟨m, hm, he⟩ := run_complete v h
      exact ⟨m, List.mem_append_left _ hm, he⟩
    · obtain ⟨m, hm, he⟩ := run_complete v h
      exact ⟨m, List.mem_append_right _ hm, he⟩
  | opt r, u, v, h => by
    rcases h with rfl | h
    · exact ⟨_, List.mem_append_right _ (List.mem_singleton_self _), rfl, rfl⟩
    · obtain ⟨m, hm, he⟩ := run_complete v h
      exact ⟨m, List.mem_append_left _ hm, he⟩
  | group r, u, v, h => by
    obtain ⟨m, hm, htext, hrest⟩ := run_complete (r := r) v h
    exact ⟨_, List.mem_map.mpr ⟨m, hm, rfl⟩, htext, hrest⟩

/-- What was captured is no longer than the match. -/
theorem run_group : ∀ {r : Regex α} {t : List α} {m : Match α}, m ∈ r.run t →
    (m.group.getD []).length ≤ m.text.length
  | one p, [], _, h => by cases h
  | one p, a :: t, m, h => by
    rw [run] at h
    split at h
    · rw [List.mem_singleton.mp h]
      exact Nat.zero_le _
    · cases h
  | many p, t, m, h => by
    obtain ⟨split, _, rfl⟩ := List.mem_map.mp h
    exact Nat.zero_le _
  | seq r s, t, m, h => by
    obtain ⟨first, hfirst, h⟩ := List.mem_flatMap.mp h
    obtain ⟨second, hsecond, rfl⟩ := List.mem_map.mp h
    have hr := run_group hfirst
    have hs := run_group hsecond
    show ((second.group.or first.group).getD []).length ≤ (first.text ++ second.text).length
    rw [List.length_append]
    cases hgroup : second.group with
    | none =>
      rw [Option.none_or]
      omega
    | some g =>
      rw [hgroup] at hs
      rw [Option.some_or]
      exact Nat.le_trans hs (Nat.le_add_left _ _)
  | alt r s, t, m, h => by
    rcases List.mem_append.mp h with h | h
    · exact run_group h
    · exact run_group h
  | opt r, t, m, h => by
    rcases List.mem_append.mp h with h | h
    · exact run_group h
    · rw [List.mem_singleton.mp h]
      exact Nat.zero_le _
  | group r, t, m, h => by
    obtain ⟨inner, _, rfl⟩ := List.mem_map.mp h
    exact Nat.le_refl _

/-- What stands before the group is no part of it. -/
theorem lit_group [DecidableEq α] : ∀ {l : List α} {r : Regex α} {t : List α} {m : Match α},
    m ∈ (lit l r).run t → (m.group.getD []).length + l.length ≤ m.text.length
  | [], r, t, m, h => run_group h
  | a :: l, r, t, m, h => by
    obtain ⟨first, hfirst, h⟩ := List.mem_flatMap.mp h
    obtain ⟨second, hsecond, rfl⟩ := List.mem_map.mp h
    have hsecond := lit_group hsecond
    cases t with
    | nil => cases hfirst
    | cons b t =>
      rw [run] at hfirst
      split at hfirst
      next =>
        rw [List.mem_singleton.mp hfirst]
        show ((second.group.or none).getD []).length + (l.length + 1) ≤ ([b] ++ second.text).length
        rw [Option.or_none, List.length_append, List.length_singleton]
        omega
      next => cases hfirst

theorem exec_none : r.exec t = none ↔ ∀ u, u <+: t → ¬ r.Matches u := by
  rw [exec, List.head?_eq_none_iff]
  constructor
  · intro h u hu hmatches
    obtain ⟨v, rfl⟩ := hu
    obtain ⟨m, hm, _⟩ := run_complete v hmatches
    rw [h] at hm
    cases hm
  · intro h
    refine List.eq_nil_iff_forall_not_mem.mpr ?_
    intro m hm
    obtain ⟨ht, hmatches⟩ := run_sound hm
    exact h m.text ⟨m.rest, ht.symm⟩ hmatches

theorem exec_mem (h : r.exec t = some m) : m ∈ r.run t := List.mem_of_mem_head? h

theorem contains_cons {a : α} :
    r.Contains (a :: t) ↔ (∃ u, u <+: a :: t ∧ r.Matches u) ∨ r.Contains t := by
  constructor
  · intro h
    obtain ⟨u, hu, hmatches⟩ := h
    rcases List.infix_cons_iff.mp hu with hinitial | hinside
    · exact .inl ⟨u, hinitial, hmatches⟩
    · exact .inr ⟨u, hinside, hmatches⟩
  · intro h
    rcases h with ⟨u, hu, hmatches⟩ | ⟨u, hu, hmatches⟩
    · exact ⟨u, hu.isInfix, hmatches⟩
    · exact ⟨u, List.infix_cons hu, hmatches⟩

theorem Contains.mono (h : r.Contains t) (hinside : t <:+: u) : r.Contains u := by
  obtain ⟨w, hw, hmatches⟩ := h
  exact ⟨w, hw.trans hinside, hmatches⟩

/-! ### Patterns that end in one character -/

/-- Every match ends in the character. -/
def EndsWith (r : Regex α) (c : α) : Prop := ∀ t, r.Matches t → ∃ u, t = u ++ [c]

theorem EndsWith.seq {c : α} (h : s.EndsWith c) : (seq r s).EndsWith c := by
  intro t hmatches
  obtain ⟨u, v, rfl, _, hv⟩ := hmatches
  obtain ⟨w, rfl⟩ := h v hv
  exact ⟨u ++ w, (List.append_assoc u w [c]).symm⟩

theorem EndsWith.lit [DecidableEq α] {c : α} (h : r.EndsWith c) :
    ∀ l : List α, (lit l r).EndsWith c
  | [] => h
  | _ :: l => (EndsWith.lit h l).seq

theorem endsWith_one [DecidableEq α] (c : α) : (one (· = c)).EndsWith c := by
  intro t hmatches
  obtain ⟨a, rfl, ha⟩ := hmatches
  exact ⟨[], congrArg (fun x => [x]) (of_decide_eq_true ha)⟩

/-- A match that ends in a character which is not appended is no new one. -/
theorem Contains.of_append {c : α} (hends : r.EndsWith c) (hc : c ∉ u)
    (h : r.Contains (t ++ u)) : r.Contains t := by
  obtain ⟨w, hw, hmatches⟩ := h
  obtain ⟨x, rfl⟩ := hends w hmatches
  refine ⟨x ++ [c], ?_, hmatches⟩
  obtain ⟨before, after, he⟩ := hw
  have he : (before ++ x ++ [c]) ++ after = t ++ u := by
    rw [← he, List.append_assoc before]
  rcases List.append_eq_append_iff.mp he with ⟨w, ht, _⟩ | ⟨w, hsplit, hu⟩
  · refine ⟨before, w, ?_⟩
    rw [ht, ← List.append_assoc before]
  · -- the character would be one of those appended, unless nothing of them is needed
    cases hw : w.reverse with
    | nil =>
      rw [List.reverse_eq_nil_iff.mp hw, List.append_nil] at hsplit
      refine ⟨before, [], ?_⟩
      rw [List.append_nil, ← hsplit, List.append_assoc]
    | cons b w' =>
      have hlast : w = w'.reverse ++ [b] := by
        rw [← List.reverse_reverse w, hw, List.reverse_cons]
      rw [hlast, ← List.append_assoc] at hsplit
      have hbc := (List.append_inj' hsplit rfl).2
      rw [List.cons.inj hbc |>.1] at hc
      refine absurd ?_ hc
      rw [hu, hlast]
      exact List.mem_append_left _ (List.mem_append_right _ (List.mem_singleton_self b))

end Regex

/-! ## Operations that shorten -/

/-- An operation that shortens every text it changes. -/
structure Shrinking (α : Type) where
  apply : List α → List α
  le : ∀ t, (apply t).length ≤ t.length
  eq : ∀ t, (apply t).length = t.length → apply t = t

namespace Shrinking

variable {t : List α}

theorem lt (op : Shrinking α) (h : op.apply t ≠ t) :
    (op.apply t).length < t.length :=
  Nat.lt_of_le_of_ne (op.le t) fun he => h (op.eq t he)

def unchanged : Shrinking α where
  apply := fun t => t
  le := fun _ => Nat.le_refl _
  eq := fun _ _ => rfl

/-- One operation after another. -/
def comp (g f : Shrinking α) : Shrinking α where
  apply := fun t => g.apply (f.apply t)
  le := fun t => Nat.le_trans (g.le _) (f.le t)
  eq := by
    intro t he
    have hf : (f.apply t).length = t.length :=
      Nat.le_antisymm (f.le t) (he ▸ g.le (f.apply t))
    rw [f.eq t hf] at he ⊢
    exact g.eq t he

theorem comp_fixed {g f : Shrinking α} (h : g.apply (f.apply t) = t) :
    f.apply t = t ∧ g.apply t = t := by
  have hlength : (f.apply t).length = t.length := by
    refine Nat.le_antisymm (f.le t) ?_
    have hg := g.le (f.apply t)
    rwa [h] at hg
  have hf := f.eq t hlength
  rw [hf] at h
  exact ⟨hf, h⟩

/-- Repeats an operation until nothing changes. -/
def exhausted [DecidableEq α] (op : Shrinking α) (t : List α) : List α :=
  if op.apply t = t then t else exhausted op (op.apply t)
termination_by t.length
decreasing_by exact op.lt ‹_›

variable [DecidableEq α] (op : Shrinking α)

theorem exhausted_of_fixed (h : op.apply t = t) : op.exhausted t = t := by
  rw [exhausted, if_pos h]

theorem exhausted_step (h : op.apply t ≠ t) :
    op.exhausted t = op.exhausted (op.apply t) := by
  rw [exhausted, if_neg h]

theorem exhausted_fixed (t : List α) : op.apply (op.exhausted t) = op.exhausted t := by
  by_cases h : op.apply t = t
  · rw [op.exhausted_of_fixed h, h]
  · rw [op.exhausted_step h]
    exact exhausted_fixed (op.apply t)
termination_by t.length
decreasing_by exact op.lt ‹_›

theorem exhausted_le (t : List α) : (op.exhausted t).length ≤ t.length := by
  by_cases h : op.apply t = t
  · exact Nat.le_of_eq (congrArg List.length (op.exhausted_of_fixed h))
  · rw [op.exhausted_step h]
    exact Nat.le_trans (exhausted_le (op.apply t)) (op.le t)
termination_by t.length
decreasing_by exact op.lt ‹_›

/-- The repetition as an operation. -/
def exhaust : Shrinking α where
  apply := op.exhausted
  le := op.exhausted_le
  eq := by
    intro t he
    by_cases h : op.apply t = t
    · exact op.exhausted_of_fixed h
    · have hlt := op.lt h
      have hle := op.exhausted_le (op.apply t)
      rw [op.exhausted_step h] at he
      omega

end Shrinking

/-! ## Rules -/

/-- A pattern and what is put in the place of a match, which is shorter. -/
structure Rule (α : Type) where
  regex : Regex α
  replacement : Match α → List α
  shorter : ∀ t m, m ∈ regex.run t → (replacement m).length < m.text.length

namespace Rule

variable (rule : Rule α)

variable {t : List α}

theorem rest_lt {m : Match α} (h : rule.regex.exec t = some m) :
    m.rest.length + (rule.replacement m).length < t.length := by
  have hmem := Regex.exec_mem h
  have hlength := congrArg List.length (Regex.run_sound hmem).1
  have hshorter := rule.shorter t m hmem
  rw [List.length_append] at hlength
  omega

/-- `text.replace(pattern, replacement)` with the global flag. -/
def replaceAll (t : List α) : List α :=
  match _h : rule.regex.exec t with
  | some m => rule.replacement m ++ replaceAll m.rest
  | none =>
    match t with
    | [] => []
    | a :: t => a :: replaceAll t
termination_by t.length
decreasing_by
  · have hlt := rule.rest_lt ‹_›
    omega
  · exact Nat.lt_succ_self _

theorem replaceAll_some {m : Match α} (h : rule.regex.exec t = some m) :
    rule.replaceAll t = rule.replacement m ++ rule.replaceAll m.rest := by
  rw [replaceAll]
  split
  next m' hm' =>
    rw [h] at hm'
    rw [Option.some.inj hm']
  next hnone =>
    rw [h] at hnone
    cases hnone

theorem replaceAll_nil_none (h : rule.regex.exec [] = none) : rule.replaceAll [] = [] := by
  rw [replaceAll]
  split
  next m hm =>
    rw [h] at hm
    cases hm
  next => rfl

theorem replaceAll_cons_none {a : α} (h : rule.regex.exec (a :: t) = none) :
    rule.replaceAll (a :: t) = a :: rule.replaceAll t := by
  rw [replaceAll]
  split
  next m hm =>
    rw [h] at hm
    cases hm
  next => rfl

theorem replaceAll_clean : ∀ {t : List α}, ¬ rule.regex.Contains t → rule.replaceAll t = t
  | [], h => by
    refine rule.replaceAll_nil_none (Regex.exec_none.mpr ?_)
    exact fun u hu hmatches => h ⟨u, hu.isInfix, hmatches⟩
  | a :: t, h => by
    rw [Regex.contains_cons, not_or] at h
    have hnone : rule.regex.exec (a :: t) = none :=
      Regex.exec_none.mpr fun u hu hmatches => h.1 ⟨u, hu, hmatches⟩
    rw [rule.replaceAll_cons_none hnone, replaceAll_clean h.2]

theorem replaceAll_le (t : List α) : (rule.replaceAll t).length ≤ t.length := by
  cases h : rule.regex.exec t with
  | some m =>
    have hlt := rule.rest_lt h
    have ih := replaceAll_le m.rest
    rw [rule.replaceAll_some h, List.length_append]
    omega
  | none =>
    cases t with
    | nil => exact Nat.le_of_eq (congrArg List.length (rule.replaceAll_nil_none h))
    | cons a t =>
      have ih := replaceAll_le t
      rw [rule.replaceAll_cons_none h, List.length_cons, List.length_cons]
      omega
termination_by t.length
decreasing_by
  · exact Nat.lt_succ_self _
  · omega

theorem replaceAll_lt : ∀ {t : List α}, rule.regex.Contains t →
    (rule.replaceAll t).length < t.length
  | t, hcontains => by
    cases h : rule.regex.exec t with
    | some m =>
      have hlt := rule.rest_lt h
      have hle := rule.replaceAll_le m.rest
      rw [rule.replaceAll_some h, List.length_append]
      omega
    | none =>
      have hnone := Regex.exec_none.mp h
      cases t with
      | nil =>
        obtain ⟨u, hu, hmatches⟩ := hcontains
        exact absurd hmatches (hnone u (List.infix_nil.mp hu ▸ List.prefix_rfl))
      | cons a t =>
        rcases Regex.contains_cons.mp hcontains with ⟨u, hu, hmatches⟩ | hcontains
        · exact absurd hmatches (hnone u hu)
        · have ih := replaceAll_lt hcontains
          rw [rule.replaceAll_cons_none h, List.length_cons, List.length_cons]
          omega
termination_by t => t.length

/-- A pass of the rule as an operation. -/
def pass : Shrinking α where
  apply := rule.replaceAll
  le := rule.replaceAll_le
  eq := by
    intro t he
    by_cases h : rule.regex.Contains t
    · have hlt := rule.replaceAll_lt h
      omega
    · exact rule.replaceAll_clean h

theorem fixed_iff : rule.pass.apply t = t ↔ ¬ rule.regex.Contains t := by
  constructor
  · intro hfixed hcontains
    have hlt := rule.replaceAll_lt hcontains
    have hlength := congrArg List.length hfixed
    have hpass : (rule.pass.apply t).length = (rule.replaceAll t).length := rfl
    omega
  · exact rule.replaceAll_clean

end Rule

end BackgroundAgents.Regexes

import Mathlib.Data.List.Infix
import Mathlib.Data.List.Forall2
import BackgroundAgents.Triggers.Glob

/-!
# Where globs mean what they say

Without two stars in a row the parts of the expression are the characters of the
pattern, and match segment by segment. A segment `**` accepts any number of segments
that hold a line feed, of which each part of the expression takes one at most; any other
`**` is translated to a part that takes slashes, where the pattern has no segment for
them.
-/

namespace BackgroundAgents.Triggers

open Regexes

variable {t u v w : Text} {c : UInt16}

/-! ## Splitting at slashes -/

theorem splitOn_slash (t : Text) : (slash :: t).splitOn slash = [] :: t.splitOn slash := by
  rw [List.splitOn_cons_eq_if_modifyHead, if_pos (beq_self_eq_true slash)]

theorem splitOn_other (h : c ≠ slash) (t : Text) :
    (c :: t).splitOn slash = (t.splitOn slash).modifyHead (List.cons c) := by
  rw [List.splitOn_cons_eq_if_modifyHead, if_neg (by simpa using h)]

/-- The first segment and the others. -/
theorem splitOn_cases (t : Text) : ∃ first rest, t.splitOn slash = first :: rest :=
  List.exists_cons_of_ne_nil (List.splitOn_ne_nil slash t)

theorem splitOn_append (h : slash ∉ u) {first : Text} {rest : List Text}
    (hv : v.splitOn slash = first :: rest) : (u ++ v).splitOn slash = (u ++ first) :: rest := by
  induction u with
  | nil => exact hv
  | cons c u ih =>
    rw [List.mem_cons, not_or] at h
    rw [List.cons_append, splitOn_other (Ne.symm h.1), ih h.2]
    rfl

theorem eq_append_of_splitOn {rest : List Text} : ∀ {u t : Text},
    t.splitOn slash = (u ++ w) :: rest →
      ∃ v, t = u ++ v ∧ slash ∉ u ∧ v.splitOn slash = w :: rest
  | [], t, h => ⟨t, rfl, List.not_mem_nil, h⟩
  | c :: u, [], h => by
    rw [List.splitOn_nil] at h
    cases h
  | c :: u, d :: t, h => by
    by_cases hd : d = slash
    · rw [hd, splitOn_slash] at h
      cases h
    · obtain ⟨first, tail, ht⟩ := splitOn_cases t
      rw [splitOn_other hd, ht, List.modifyHead_cons] at h
      obtain ⟨hfirst, rfl⟩ := List.cons.inj h
      obtain ⟨rfl, rfl⟩ := List.cons.inj hfirst
      obtain ⟨v, rfl, hu, hv⟩ := eq_append_of_splitOn ht
      refine ⟨v, rfl, ?_, hv⟩
      rw [List.mem_cons, not_or]
      exact ⟨Ne.symm hd, hu⟩

theorem length_splitOn (t : Text) : (t.splitOn slash).length = t.count slash + 1 := by
  induction t with
  | nil => rfl
  | cons c t ih =>
    by_cases hc : c = slash
    · rw [hc, splitOn_slash, List.length_cons, ih, List.count_cons_self]
    · rw [splitOn_other hc, List.length_modifyHead, ih, List.count_cons_of_ne hc]

/-! ## The expression -/

/-- The texts that the parts match one after the other. -/
def Spells : List Part → Text → Prop
  | [], t => t = []
  | part :: parts, t => ∃ u v, t = u ++ v ∧ part.regex.Matches u ∧ Spells parts v

theorem matches_joined : ∀ {parts : List Part} {t : Text},
    (joined parts).Matches t ↔ Spells parts t
  | [], t => by
    show (∀ a ∈ t, false = true) ↔ t = []
    rw [List.eq_nil_iff_forall_not_mem]
    simp
  | part :: parts, t => by
    show (∃ u v, t = u ++ v ∧ part.regex.Matches u ∧ (joined parts).Matches v) ↔ _
    simp only [@matches_joined parts]
    rfl

theorem matchGlob_iff {pattern input : Text} :
    matchGlob pattern input = true ↔ Spells (globParts false pattern) input := by
  unfold matchGlob
  rw [← matches_joined, List.any_eq_true]
  constructor
  · intro h
    obtain ⟨m, hm, hrest⟩ := h
    obtain ⟨ht, hmatch⟩ := Regex.run_sound hm
    rw [List.isEmpty_iff.mp hrest, List.append_nil] at ht
    rw [ht]
    exact hmatch
  · intro h
    obtain ⟨m, hm, _, hrest⟩ := Regex.run_complete [] h
    rw [List.append_nil] at hm
    exact ⟨m, hm, List.isEmpty_iff.mpr hrest⟩

/-! ## Patterns without two stars in a row -/

/-- The part of a character on its own. -/
def plainPart (c : UInt16) : Part := if c = star then .run else .literal c

theorem globParts_plain : ∀ {pattern : Text}, doubleStar pattern = false →
    globParts false pattern = pattern.map plainPart
  | [], _ => rfl
  | [c], _ => by
    rw [globParts, if_neg (by simp), List.map_singleton, plainPart]
    split
    · rfl
    · rfl
  | c :: d :: rest, h => by
    rw [doubleStar, Bool.or_eq_false_iff] at h
    have hrest := globParts_plain h.2
    rw [globParts, if_neg (by simp), List.map_cons, plainPart]
    by_cases hc : c = star
    · have hd : d ≠ star := by
        intro hd
        rw [hc, hd] at h
        exact absurd h.1 (by decide)
      rw [if_pos hc, if_neg hd, if_pos hc, hrest]
    · rw [if_neg hc, if_neg hc, hrest]

/-- Segment by segment, where no segment stands for several. -/
def SegmentWise (patterns segments : List Text) : Prop :=
  List.Forall₂ (fun pattern segment => matchSegment pattern segment = true) patterns segments

/-- What the first character of a pattern takes. -/
theorem matchSegment_cons {pattern segment : Text} :
    matchSegment (c :: pattern) segment = true ↔
      ∃ u v, segment = u ++ v ∧ (c ≠ star → u = [c]) ∧ matchSegment pattern v = true := by
  conv_lhs => unfold matchSegment
  by_cases hc : c = star
  · rw [if_pos hc, List.any_eq_true]
    constructor
    · intro h
      obtain ⟨v, hv, hmatch⟩ := h
      obtain ⟨u, hu⟩ := (List.mem_tails _ _).mp hv
      exact ⟨u, v, hu.symm, fun hother => absurd hc hother, hmatch⟩
    · intro h
      obtain ⟨u, v, rfl, _, hmatch⟩ := h
      exact ⟨v, (List.mem_tails _ _).mpr (List.suffix_append u v), hmatch⟩
  · rw [if_neg hc]
    cases segment with
    | nil =>
      constructor
      · intro h
        exact absurd h Bool.false_ne_true
      · intro h
        obtain ⟨u, v, huv, hu, _⟩ := h
        rw [hu hc] at huv
        exact absurd huv (List.cons_ne_nil c v).symm
    | cons d segment =>
      dsimp only
      rw [Bool.and_eq_true, decide_eq_true_eq]
      constructor
      · intro h
        exact ⟨[c], segment, by rw [h.1]; rfl, fun _ => rfl, h.2⟩
      · intro h
        obtain ⟨u, v, huv, hu, hmatch⟩ := h
        rw [hu hc] at huv
        obtain ⟨rfl, rfl⟩ := List.cons.inj huv
        exact ⟨rfl, hmatch⟩

theorem plainPart_matches (hc : c ≠ slash) :
    (plainPart c).regex.Matches u ↔ slash ∉ u ∧ (c ≠ star → u = [c]) := by
  unfold plainPart
  by_cases hstar : c = star
  · rw [if_pos hstar]
    show (∀ d ∈ u, decide (d ≠ slash) = true) ↔ _
    simp only [decide_eq_true_eq]
    constructor
    · intro h
      exact ⟨fun hmem => h slash hmem rfl, fun hother => absurd hstar hother⟩
    · intro h d hd he
      exact h.1 (he ▸ hd)
  · rw [if_neg hstar]
    show (∃ d, u = [d] ∧ decide (d = c) = true) ↔ _
    simp only [decide_eq_true_eq]
    constructor
    · intro h
      obtain ⟨d, rfl, rfl⟩ := h
      exact ⟨fun hmem => hc (List.mem_singleton.mp hmem).symm, fun _ => rfl⟩
    · intro h
      exact ⟨c, h.2 hstar, rfl⟩

theorem segmentWise_cons {pattern segment : Text} {patterns segments : List Text} :
    SegmentWise (pattern :: patterns) (segment :: segments) ↔
      matchSegment pattern segment = true ∧ SegmentWise patterns segments :=
  List.forall₂_cons

variable {pattern : Text}

theorem segmentWise_left {patterns segments : List Text}
    (h : SegmentWise (pattern :: patterns) segments) :
    ∃ segment rest, segments = segment :: rest ∧ matchSegment pattern segment = true ∧
      SegmentWise patterns rest := by
  cases h with
  | cons hfirst hrest => exact ⟨_, _, rfl, hfirst, hrest⟩

theorem spells_plain : ∀ {pattern input : Text}, Spells (pattern.map plainPart) input ↔
    SegmentWise (pattern.splitOn slash) (input.splitOn slash)
  | [], input => by
    show input = [] ↔ _
    rw [List.splitOn_nil]
    constructor
    · intro h
      rw [h, List.splitOn_nil, segmentWise_cons]
      exact ⟨rfl, List.Forall₂.nil⟩
    · intro h
      obtain ⟨segment, rest, hsplit, hfirst, hrest⟩ := segmentWise_left h
      cases hrest
      rw [List.isEmpty_iff.mp hfirst] at hsplit
      have hjoin := @List.intercalate_splitOn _ input _ _ slash
      rw [hsplit] at hjoin
      exact hjoin.symm
  | c :: pattern, input => by
    rw [List.map_cons]
    by_cases hc : c = slash
    · -- the next segment begins
      rw [hc, splitOn_slash]
      constructor
      · intro h
        obtain ⟨u, v, rfl, hslash, hv⟩ := h
        obtain ⟨d, rfl, hd⟩ := hslash
        rw [of_decide_eq_true hd, List.singleton_append, splitOn_slash, segmentWise_cons]
        exact ⟨rfl, spells_plain.mp hv⟩
      · intro h
        obtain ⟨segment, rest, hsplit, hfirst, hrest⟩ := segmentWise_left h
        rw [List.isEmpty_iff.mp hfirst] at hsplit
        cases input with
        | nil =>
          rw [List.splitOn_nil] at hsplit
          obtain ⟨_, rfl⟩ := List.cons.inj hsplit
          obtain ⟨first, tail, hp⟩ := splitOn_cases pattern
          rw [hp] at hrest
          cases hrest
        | cons d input =>
          by_cases hd : d = slash
          · rw [hd, splitOn_slash] at hsplit
            obtain ⟨_, rfl⟩ := List.cons.inj hsplit
            exact ⟨[d], input, rfl, ⟨d, rfl, decide_eq_true hd⟩, spells_plain.mpr hrest⟩
          · obtain ⟨first, tail, ht⟩ := splitOn_cases input
            rw [splitOn_other hd, ht, List.modifyHead_cons] at hsplit
            exact absurd (List.cons.inj hsplit).1 (List.cons_ne_nil d first)
    · obtain ⟨first, rest, hp⟩ := splitOn_cases pattern
      rw [splitOn_other hc, hp, List.modifyHead_cons]
      constructor
      · intro h
        obtain ⟨u, v, rfl, hu, hv⟩ := h
        obtain ⟨hslash, htaken⟩ := (plainPart_matches hc).mp hu
        have hrest := spells_plain.mp hv
        rw [hp] at hrest
        obtain ⟨w, segments, hsplit, hfirst, hrest⟩ := segmentWise_left hrest
        rw [splitOn_append hslash hsplit, segmentWise_cons]
        exact ⟨matchSegment_cons.mpr ⟨u, w, rfl, htaken, hfirst⟩, hrest⟩
      · intro h
        obtain ⟨segment, segments, hsplit, hfirst, hrest⟩ := segmentWise_left h
        obtain ⟨u, w, rfl, htaken, hmatch⟩ := matchSegment_cons.mp hfirst
        obtain ⟨v, rfl, hslash, hv⟩ := eq_append_of_splitOn hsplit
        refine ⟨u, v, rfl, (plainPart_matches hc).mpr ⟨hslash, htaken⟩, spells_plain.mpr ?_⟩
        rw [hp, hv, segmentWise_cons]
        exact ⟨hmatch, hrest⟩

/-! ## Where two stars stand -/

theorem doubleStar_iff : ∀ {t : Text}, doubleStar t = true ↔ [star, star] <:+: t
  | [] => by
    rw [List.infix_nil]
    exact ⟨fun h => absurd h Bool.false_ne_true, fun h => absurd h (List.cons_ne_nil _ _)⟩
  | [c] => by
    constructor
    · intro h
      exact absurd h Bool.false_ne_true
    · intro h
      exact absurd h.length_le (Nat.not_succ_le_self 1)
  | c :: d :: rest => by
    rw [doubleStar, Bool.or_eq_true, Bool.and_eq_true, decide_eq_true_eq, decide_eq_true_eq,
      List.infix_cons_iff, doubleStar_iff, List.cons_prefix_cons, List.cons_prefix_cons]
    constructor
    · intro h
      exact h.imp_left fun hboth => ⟨hboth.1.symm, hboth.2.symm, List.nil_prefix⟩
    · intro h
      exact h.imp_left fun hboth => ⟨hboth.1.symm, hboth.2.1.symm⟩

theorem segment_within : ∀ {t segment : Text}, segment ∈ t.splitOn slash → segment <:+: t
  | [], segment, h => by
    rw [List.splitOn_nil, List.mem_singleton] at h
    rw [h]
  | c :: t, segment, h => by
    by_cases hc : c = slash
    · rw [hc, splitOn_slash, List.mem_cons] at h
      cases h with
      | inl h =>
        rw [h]
        exact List.nil_infix
      | inr h => exact (segment_within h).trans (List.suffix_cons c t).isInfix
    · obtain ⟨first, rest, ht⟩ := splitOn_cases t
      rw [splitOn_other hc, ht, List.modifyHead_cons, List.mem_cons] at h
      cases h with
      | inl h =>
        rw [← List.append_nil first] at ht
        obtain ⟨v, rfl, _, _⟩ := eq_append_of_splitOn ht
        rw [h]
        exact (List.prefix_append (c :: first) v).isInfix
      | inr h =>
        have hmem : segment ∈ t.splitOn slash := by
          rw [ht]
          exact List.mem_cons_of_mem _ h
        exact (segment_within hmem).trans (List.suffix_cons c t).isInfix

theorem matchSegments_plain : ∀ {patterns segments : List Text}, [star, star] ∉ patterns →
    (matchSegments patterns segments = true ↔ SegmentWise patterns segments)
  | [], segments, _ => by
    show segments.isEmpty = true ↔ _
    rw [List.isEmpty_iff]
    exact (List.forall₂_nil_left_iff).symm
  | pattern :: patterns, segments, h => by
    rw [List.mem_cons, not_or] at h
    unfold matchSegments
    rw [if_neg (Ne.symm h.1)]
    cases segments with
    | nil => exact ⟨fun hfalse => absurd hfalse Bool.false_ne_true, fun hnone => by cases hnone⟩
    | cons segment segments =>
      dsimp only
      rw [Bool.and_eq_true, matchSegments_plain h.2, segmentWise_cons]

theorem matchGlob_plain (h : doubleStar pattern = false) (input : Text) :
    matchGlob pattern input = documented pattern input := by
  have hsegments : [star, star] ∉ pattern.splitOn slash := by
    intro hmem
    rw [doubleStar_iff.mpr (segment_within hmem)] at h
    exact Bool.false_ne_true h.symm
  rw [Bool.eq_iff_iff, matchGlob_iff, globParts_plain h, spells_plain]
  exact (matchSegments_plain hsegments).symm

/-! ## A segment of two stars -/

/-- How often a slash stands behind a line feed. -/
def breaks : Text → Nat
  | c :: d :: rest => (if c = lineFeed ∧ d = slash then 1 else 0) + breaks (d :: rest)
  | _ => 0

theorem breaks_cons_le (c : UInt16) (t : Text) :
    breaks t ≤ breaks (c :: t) ∧ breaks (c :: t) ≤ breaks t + 1 := by
  cases t with
  | nil => exact ⟨Nat.zero_le _, Nat.zero_le _⟩
  | cons d rest =>
    rw [breaks]
    split
    next => omega
    next => omega

theorem breaks_append_le : ∀ (u v : Text), breaks v ≤ breaks (u ++ v) ∧
    breaks (u ++ v) ≤ breaks u + 1 + breaks v
  | [], v => by
    rw [List.nil_append]
    omega
  | [c], v => by
    have hcons := breaks_cons_le c v
    rw [List.singleton_append]
    omega
  | c :: d :: rest, v => by
    have htail := breaks_append_le (d :: rest) v
    rw [List.cons_append] at htail
    rw [List.cons_append, List.cons_append, breaks, breaks]
    omega

theorem breaks_none : ∀ {t : Text}, slash ∉ t ∨ lineFeed ∉ t → breaks t = 0
  | [], _ => rfl
  | [_], _ => rfl
  | c :: d :: rest, h => by
    have htail : slash ∉ d :: rest ∨ lineFeed ∉ d :: rest :=
      h.imp (fun hno hmem => hno (List.mem_cons_of_mem _ hmem))
        (fun hno hmem => hno (List.mem_cons_of_mem _ hmem))
    have hhere : ¬(c = lineFeed ∧ d = slash) := by
      intro hbreak
      cases h with
      | inl h => exact h (List.mem_cons_of_mem _ (hbreak.2 ▸ List.mem_cons_self))
      | inr h => exact h (hbreak.1 ▸ List.mem_cons_self)
    rw [breaks, if_neg hhere, breaks_none htail]

/-- No part takes a line feed and a slash behind it. -/
theorem part_breaks {part : Part} (h : part.regex.Matches u) : breaks u = 0 := by
  cases part with
  | anything =>
    refine breaks_none (Or.inr fun hmem => ?_)
    exact absurd (h lineFeed hmem) (by decide)
  | run =>
    refine breaks_none (Or.inl fun hmem => ?_)
    exact absurd (h slash hmem) (by decide)
  | literal c =>
    obtain ⟨d, rfl, _⟩ := h
    rfl

theorem spells_breaks : ∀ {parts : List Part} {t : Text}, Spells parts t → breaks t ≤ parts.length
  | [], t, h => by
    have ht : t = [] := h
    rw [ht]
    exact Nat.le_refl 0
  | part :: parts, t, h => by
    obtain ⟨u, v, rfl, hu, hv⟩ := h
    have hfirst := part_breaks hu
    have hrest := spells_breaks hv
    have hboth := (breaks_append_le u v).2
    rw [List.length_cons]
    omega

/-- Segments for those of a pattern, `n` of them for a segment of two stars. -/
def filled (n : Nat) : List Text → List Text
  | [] => []
  | pattern :: patterns =>
    if pattern = [star, star] then List.replicate n [lineFeed] ++ filled n patterns
    else pattern.filter (fun c => c ≠ star) :: filled n patterns

theorem matchSegment_filter (pattern : Text) :
    matchSegment pattern (pattern.filter fun c => c ≠ star) = true := by
  induction pattern with
  | nil => rfl
  | cons c pattern ih =>
    rw [matchSegment_cons]
    by_cases hc : c = star
    · rw [List.filter_cons_of_neg (by simpa using hc)]
      exact ⟨[], _, rfl, fun hother => absurd hc hother, ih⟩
    · rw [List.filter_cons_of_pos (by simpa using hc)]
      exact ⟨[c], _, rfl, fun _ => rfl, ih⟩

theorem matchSegments_filled (n : Nat) (patterns : List Text) :
    matchSegments patterns (filled n patterns) = true := by
  induction patterns with
  | nil => rfl
  | cons pattern patterns ih =>
    unfold matchSegments filled
    by_cases hstars : pattern = [star, star]
    · rw [if_pos hstars, if_pos hstars, List.any_eq_true]
      exact ⟨_, (List.mem_tails _ _).mpr (List.suffix_append _ _), ih⟩
    · rw [if_neg hstars, if_neg hstars]
      dsimp only
      rw [matchSegment_filter, ih]
      rfl

variable {patterns : List Text}

theorem filled_slashes {n : Nat} (h : ∀ p ∈ patterns, slash ∉ p) :
    ∀ segment ∈ filled n patterns, slash ∉ segment := by
  induction patterns with
  | nil => exact fun segment hmem => absurd hmem List.not_mem_nil
  | cons pattern patterns ih =>
    rw [List.forall_mem_cons] at h
    have hrest := ih h.2
    unfold filled
    split
    next =>
      intro segment hmem
      cases List.mem_append.mp hmem with
      | inl hmem =>
        rw [List.eq_of_mem_replicate hmem]
        decide
      | inr hmem => exact hrest segment hmem
    next =>
      rw [List.forall_mem_cons]
      exact ⟨fun hmem => h.1 (List.mem_of_mem_filter hmem), hrest⟩

theorem filled_ne_nil {n : Nat} (hn : 0 < n) (h : patterns ≠ []) :
    filled n patterns ≠ [] := by
  cases patterns with
  | nil => exact absurd rfl h
  | cons pattern patterns =>
    unfold filled
    split
    next =>
      rw [ne_eq, List.append_eq_nil_iff, List.replicate_eq_nil_iff]
      omega
    next => exact List.cons_ne_nil _ _

theorem slash_not_mem_segment : ∀ {t segment : Text}, segment ∈ t.splitOn slash → slash ∉ segment
  | [], segment, h => by
    rw [List.splitOn_nil, List.mem_singleton] at h
    rw [h]
    exact List.not_mem_nil
  | c :: t, segment, h => by
    by_cases hc : c = slash
    · rw [hc, splitOn_slash, List.mem_cons] at h
      cases h with
      | inl h =>
        rw [h]
        exact List.not_mem_nil
      | inr h => exact slash_not_mem_segment h
    · obtain ⟨first, rest, ht⟩ := splitOn_cases t
      rw [splitOn_other hc, ht, List.modifyHead_cons, List.mem_cons] at h
      cases h with
      | inl h =>
        have hfirst : slash ∉ first := by
          refine slash_not_mem_segment (t := t) ?_
          rw [ht]
          exact List.mem_cons_self
        rw [h, List.mem_cons, not_or]
        exact ⟨Ne.symm hc, hfirst⟩
      | inr h =>
        refine slash_not_mem_segment (t := t) ?_
        rw [ht]
        exact List.mem_cons_of_mem _ h

theorem breaks_replicate (rest : List Text) : ∀ n : Nat,
    n ≤ breaks ([slash].intercalate (List.replicate n [lineFeed] ++ rest)) + 1
  | 0 => Nat.zero_le _
  | 1 => Nat.succ_le_succ (Nat.zero_le _)
  | n + 2 => by
    have ih := breaks_replicate rest (n + 1)
    rw [List.replicate_succ, List.cons_append] at ih
    rw [List.replicate_succ, List.replicate_succ, List.cons_append, List.cons_append,
      List.intercalate_cons_cons, List.append_assoc, List.singleton_append,
      List.singleton_append, breaks, if_pos ⟨rfl, rfl⟩]
    have hslash := (breaks_cons_le slash
      ([slash].intercalate ([lineFeed] :: (List.replicate n [lineFeed] ++ rest)))).1
    omega

theorem breaks_filled {n : Nat} (h : [star, star] ∈ patterns) :
    n ≤ breaks ([slash].intercalate (filled n patterns)) + 1 := by
  induction patterns with
  | nil => exact absurd h List.not_mem_nil
  | cons pattern patterns ih =>
    unfold filled
    by_cases hstars : pattern = [star, star]
    · rw [if_pos hstars]
      exact breaks_replicate _ n
    · have hrest : [star, star] ∈ patterns := by
        rw [List.mem_cons] at h
        exact h.resolve_left (Ne.symm hstars)
      rw [if_neg hstars]
      cases n with
      | zero => exact Nat.zero_le _
      | succ n =>
        have hne := filled_ne_nil (Nat.succ_pos n) (List.ne_nil_of_mem hrest)
        rw [List.intercalate_cons_of_ne_nil hne]
        exact (ih hrest).trans (Nat.succ_le_succ (breaks_append_le _ _).1)

/-- A segment of two stars accepts more line feeds than the expression takes. -/
theorem segment_differs (h : [star, star] ∈ pattern.splitOn slash) :
    ∃ input, matchGlob pattern input ≠ documented pattern input := by
  have hne := filled_ne_nil (Nat.succ_pos ((globParts false pattern).length + 1))
    (List.splitOn_ne_nil slash pattern)
  have hslash := filled_slashes (n := (globParts false pattern).length + 2)
    fun p hp => slash_not_mem_segment (t := pattern) hp
  refine ⟨[slash].intercalate
    (filled ((globParts false pattern).length + 2) (pattern.splitOn slash)), ?_⟩
  unfold documented
  rw [List.splitOn_intercalate slash hslash hne, matchSegments_filled, ne_eq, matchGlob_iff]
  intro hspells
  have hfew := spells_breaks hspells
  have hmany := breaks_filled (n := (globParts false pattern).length + 2) h
  omega

/-! ## Two stars within a segment -/

theorem anything_mem : ∀ {afterStars : Bool} {t : Text}, doubleStar t = true →
    Part.anything ∈ globParts afterStars t
  | _, [], h => absurd h Bool.false_ne_true
  | _, [_], h => absurd h Bool.false_ne_true
  | afterStars, c :: d :: rest, h => by
    rw [doubleStar, Bool.or_eq_true, Bool.and_eq_true, decide_eq_true_eq, decide_eq_true_eq] at h
    have hrest : ¬(c = star ∧ d = star) → Part.anything ∈ globParts false (d :: rest) :=
      fun hno => anything_mem (h.resolve_left hno)
    unfold globParts
    split
    next hslash =>
      refine hrest fun hboth => ?_
      exact absurd (hslash.2.symm.trans hboth.1) (by decide)
    next =>
      split
      next hc =>
        split
        next => exact List.mem_cons_self
        next hd => exact List.mem_cons_of_mem _ (hrest fun hboth => hd hboth.2)
      next hc => exact List.mem_cons_of_mem _ (hrest fun hboth => hc hboth.1)

/-- A text for a part, `n` slashes for `.*`. -/
def Part.bulk (n : Nat) : Part → Text
  | .anything => List.replicate n slash
  | .run => []
  | .literal c => [c]

theorem bulk_matches (n : Nat) (part : Part) : part.regex.Matches (part.bulk n) := by
  cases part with
  | anything =>
    intro c hc
    rw [List.eq_of_mem_replicate hc]
    decide
  | run => exact fun c hc => absurd hc List.not_mem_nil
  | literal c => exact ⟨c, rfl, decide_eq_true rfl⟩

theorem spells_bulk (n : Nat) : ∀ parts : List Part, Spells parts (parts.flatMap (Part.bulk n))
  | [] => rfl
  | part :: parts => ⟨_, _, List.flatMap_cons, bulk_matches n part, spells_bulk n parts⟩

theorem bulk_count {n : Nat} {parts : List Part} (h : Part.anything ∈ parts) :
    n ≤ (parts.flatMap (Part.bulk n)).count slash := by
  induction parts with
  | nil => exact absurd h List.not_mem_nil
  | cons part parts ih =>
    rw [List.flatMap_cons, List.count_append]
    cases List.mem_cons.mp h with
    | inl hpart =>
      have hcount : (part.bulk n).count slash = n := by
        rw [← hpart]
        exact List.count_replicate_self
      omega
    | inr hmem =>
      have hrest := ih hmem
      omega

/-- The expression takes more slashes than the pattern has segments for. -/
theorem within_differs (hstars : doubleStar pattern = true)
    (h : [star, star] ∉ pattern.splitOn slash) :
    ∃ input, matchGlob pattern input ≠ documented pattern input := by
  have hmatch := matchGlob_iff.mpr
    (spells_bulk (pattern.splitOn slash).length (globParts false pattern))
  refine ⟨(globParts false pattern).flatMap
    (Part.bulk (pattern.splitOn slash).length), fun heq => ?_⟩
  rw [hmatch] at heq
  have hlength := ((matchSegments_plain h).mp heq.symm).length_eq
  rw [length_splitOn ((globParts false pattern).flatMap _)] at hlength
  have hcount := bulk_count (n := (pattern.splitOn slash).length)
    (@anything_mem false _ hstars)
  omega

/-! ## Branch and path globs -/

/-- `matchGlob` accepts the inputs that its documentation describes exactly for the
patterns without two stars in a row. -/
theorem matchGlob_documented (pattern : Text) :
    (∀ input, matchGlob pattern input = documented pattern input) ↔
      doubleStar pattern = false := by
  constructor
  · intro h
    refine Bool.eq_false_iff.mpr fun hstars => ?_
    have hdiffers : ∃ input, matchGlob pattern input ≠ documented pattern input := by
      by_cases hsegment : [star, star] ∈ pattern.splitOn slash
      · exact segment_differs hsegment
      · exact within_differs hstars hsegment
    obtain ⟨input, hne⟩ := hdiffers
    exact hne (h input)
  · exact matchGlob_plain

/-- `a/**/b` accepts `a/xb`, whose last segment merely ends in `b`. -/
theorem two_stars_misread :
    matchGlob [97, slash, star, star, slash, 98] [97, slash, 120, 98] = true ∧
      documented [97, slash, star, star, slash, 98] [97, slash, 120, 98] = false := by
  decide +kernel

end BackgroundAgents.Triggers

import BackgroundAgents.Slack.Sections

/-!
# Counting code fences

`advanceFence` counts the fences of a chunk up to parity (`weight_advanceFence`), and
what it keeps of an opening line has no fence in it, so that the line which reopens a
fence counts for one. Fences add up where two texts meet at a newline (`Seam`).
-/

namespace BackgroundAgents.Slack

/-- Two texts that no fence joins. -/
def Seam (a b : Text) : Prop := a = [] ∨ a.getLast? = some newline ∨ b.head? = some newline

theorem newline_ne_backtick : newline ≠ backtick := by decide

/-! ## `countFences` -/

theorem countFences_fence (rest : Text) : countFences (CODE_FENCE ++ rest) = countFences rest + 1 :=
  if_pos rfl

theorem countFences_step {a b c : UInt16} (h : [a, b, c] ≠ CODE_FENCE) (rest : Text) :
    countFences (a :: b :: c :: rest) = countFences (b :: c :: rest) := by
  rw [countFences, if_neg h]

theorem countFences_cons_ne {a : UInt16} (h : a ≠ backtick) :
    ∀ t : Text, countFences (a :: t) = countFences t
  | [] => rfl
  | [_] => rfl
  | _ :: _ :: rest => countFences_step (fun he => h (List.cons.inj he).1) rest

theorem countFences_newline (t : Text) : countFences (newline :: t) = countFences t :=
  countFences_cons_ne newline_ne_backtick t

theorem countFences_append_newline (b : Text) : ∀ a : Text,
    countFences (a ++ newline :: b) = countFences a + countFences b
  | [] => by
    show countFences (newline :: b) = 0 + countFences b
    rw [countFences_newline, Nat.zero_add]
  | [x] => by
    show countFences (x :: newline :: b) = 0 + countFences b
    cases b with
    | nil => rfl
    | cons c b =>
      rw [countFences_step (fun he => newline_ne_backtick (List.cons.inj (List.cons.inj he).2).1),
        countFences_newline, Nat.zero_add]
  | [x, y] => by
    have ih := countFences_append_newline b [y]
    show countFences (x :: y :: newline :: b) = 0 + countFences b
    have hthird : [x, y, newline] ≠ CODE_FENCE := fun he =>
      newline_ne_backtick (List.cons.inj (List.cons.inj (List.cons.inj he).2).2).1
    rw [countFences_step hthird]
    exact ih
  | x :: y :: z :: rest => by
    show countFences (x :: y :: z :: (rest ++ newline :: b)) = _
    by_cases hfence : [x, y, z] = CODE_FENCE
    · have ih := countFences_append_newline b rest
      rw [countFences, if_pos hfence, countFences, if_pos hfence, ih]
      omega
    · have ih := countFences_append_newline b (y :: z :: rest)
      rw [countFences_step hfence, countFences_step hfence]
      exact ih

/-- Fences add up across a seam. -/
theorem countFences_append {a b : Text} (h : Seam a b) :
    countFences (a ++ b) = countFences a + countFences b := by
  rcases h with hnil | hlast | hhead
  · rw [hnil]
    exact (Nat.zero_add _).symm
  · obtain ⟨front, rfl⟩ := List.getLast?_eq_some_iff.mp hlast
    have hwhole := countFences_append_newline b front
    have hfront := countFences_append_newline [] front
    rw [List.append_assoc]
    show countFences (front ++ newline :: b) = countFences (front ++ [newline]) + countFences b
    rw [hwhole, hfront]
    rfl
  · cases b with
    | nil => cases hhead
    | cons c b =>
      obtain rfl : c = newline := Option.some.inj hhead
      rw [countFences_append_newline, countFences_newline]

/-- No fence is counted exactly where none is. -/
theorem countFences_eq_zero : ∀ t : Text, countFences t = 0 ↔ ¬ CODE_FENCE <:+: t
  | [] => iff_of_true rfl fun h => absurd h.length_le (by decide)
  | [_] => iff_of_true rfl fun h => absurd h.length_le (by show ¬ 3 ≤ 1; omega)
  | [_, _] => iff_of_true rfl fun h => absurd h.length_le (by show ¬ 3 ≤ 2; omega)
  | x :: y :: z :: rest => by
    by_cases hfence : [x, y, z] = CODE_FENCE
    · rw [countFences, if_pos hfence]
      exact iff_of_false (Nat.succ_ne_zero _) fun h => h ⟨[], rest, by rw [← hfence]; rfl⟩
    · have ih := countFences_eq_zero (y :: z :: rest)
      rw [countFences_step hfence, ih]
      refine ⟨fun h hinside => ?_, fun h hinside => h (List.infix_cons_iff.mpr (.inr hinside))⟩
      rcases List.infix_cons_iff.mp hinside with ⟨t, ht⟩ | hrest
      · have hthree : CODE_FENCE = [x, y, z] := congrArg (List.take 3) ht
        exact hfence hthree.symm
      · exact h hrest

theorem countFences_inside {s t : Text} (hst : s <:+: t) (h : countFences t = 0) :
    countFences s = 0 :=
  (countFences_eq_zero s).mpr fun hfence => (countFences_eq_zero t).mp h (hfence.trans hst)

/-! ## States -/

/-- The fences that a state has open: none or one. -/
def FenceState.weight (state : FenceState) : Nat := if state.isOpen then 1 else 0

theorem FenceState.weight_le (state : FenceState) : state.weight ≤ 1 := by
  unfold FenceState.weight
  split <;> omega

theorem weight_passFence (state : FenceState) (startsLine : Bool) (rest : Text) :
    (passFence state startsLine rest).weight = (state.weight + 1) % 2 := by
  unfold passFence FenceState.weight
  cases state.isOpen <;> rfl

theorem weight_advanceLine : ∀ (line : Text) (state : FenceState) (startsLine : Bool),
    (advanceLine line state startsLine).weight = (state.weight + countFences line) % 2
  | [], state, _ => (Nat.mod_eq_of_lt (Nat.lt_succ_of_le state.weight_le)).symm
  | [_], state, _ => (Nat.mod_eq_of_lt (Nat.lt_succ_of_le state.weight_le)).symm
  | [_, _], state, _ => (Nat.mod_eq_of_lt (Nat.lt_succ_of_le state.weight_le)).symm
  | a :: b :: c :: rest, state, startsLine => by
    by_cases hfence : [a, b, c] = CODE_FENCE
    · have ih := weight_advanceLine rest (passFence state startsLine rest) false
      rw [advanceLine, if_pos hfence, countFences, if_pos hfence, ih, weight_passFence]
      omega
    · have ih := weight_advanceLine (b :: c :: rest) state (startsLine && whiteSpace a)
      rw [advanceLine, if_neg hfence, countFences_step hfence]
      exact ih

theorem countFences_intercalate : ∀ lines : List Text,
    countFences ([newline].intercalate lines) = (lines.map countFences).sum
  | [] => rfl
  | [line] => by
    rw [List.intercalate_singleton, List.map_singleton, List.sum_singleton]
  | line :: next :: rest => by
    have ih := countFences_intercalate (next :: rest)
    rw [List.intercalate_cons_cons, List.append_assoc]
    show countFences (line ++ newline :: [newline].intercalate (next :: rest)) = _
    rw [countFences_append_newline, ih]
    rfl

theorem weight_foldl : ∀ (lines : List Text) (state : FenceState),
    (lines.foldl (fun state line => advanceLine line state true) state).weight =
      (state.weight + (lines.map countFences).sum) % 2
  | [], state => (Nat.mod_eq_of_lt (Nat.lt_succ_of_le state.weight_le)).symm
  | line :: rest, state => by
    have ih := weight_foldl rest (advanceLine line state true)
    have hline := weight_advanceLine line state true
    rw [List.foldl_cons, ih, List.map_cons, List.sum_cons, hline]
    omega

/-- The state keeps count of the fences. -/
theorem weight_advanceFence (state : FenceState) (chunk : Text) :
    (advanceFence state chunk).weight = (state.weight + countFences chunk) % 2 := by
  have hlines := countFences_intercalate (chunk.splitOn newline)
  rw [List.intercalate_splitOn] at hlines
  rw [advanceFence, weight_foldl, hlines]

/-! ## The retained info string -/

/-- The info string is short and has no fence of its own. -/
structure FenceState.Sound (state : FenceState) : Prop where
  short : state.info.length ≤ FENCE_INFO_MAX_CHARS
  plain : countFences state.info = 0

theorem closedFence_sound : CLOSED_FENCE.Sound := ⟨Nat.zero_le _, rfl⟩

theorem trim_inside (text : Text) : trim text <:+: text := by
  have hdrop : ((text.dropWhile whiteSpace).reverse.dropWhile whiteSpace).reverse <+:
      text.dropWhile whiteSpace := by
    rw [← List.reverse_suffix, List.reverse_reverse]
    exact List.dropWhile_suffix _
  exact hdrop.isInfix.trans (List.dropWhile_suffix _).isInfix

theorem normalizeFenceInfo_inside (raw : Text) : normalizeFenceInfo raw <:+: raw :=
  ((List.take_prefix _ _).trans (List.takeWhile_prefix _)).isInfix.trans (trim_inside raw)

theorem passFence_sound {state : FenceState} {startsLine : Bool} {rest : Text}
    (h : countFences rest = 0) : (passFence state startsLine rest).Sound := by
  unfold passFence
  split
  next => exact closedFence_sound
  next =>
    split
    next =>
      refine ⟨?_, countFences_inside (normalizeFenceInfo_inside rest) h⟩
      show (List.take FENCE_INFO_MAX_CHARS _).length ≤ _
      exact List.length_take_le _ _
    next => exact ⟨Nat.zero_le _, rfl⟩

/-- A state that is not sound has a fence ahead, which closes it. -/
theorem advanceLine_sound : ∀ (line : Text) (state : FenceState) (startsLine : Bool),
    state.Sound ∨ 0 < countFences line → (advanceLine line state startsLine).Sound
  | [], _, _, h => h.resolve_right (Nat.lt_irrefl 0)
  | [_], _, _, h => h.resolve_right (Nat.lt_irrefl 0)
  | [_, _], _, _, h => h.resolve_right (Nat.lt_irrefl 0)
  | a :: b :: c :: rest, state, startsLine, h => by
    by_cases hfence : [a, b, c] = CODE_FENCE
    · rw [advanceLine, if_pos hfence]
      apply advanceLine_sound rest
      by_cases hrest : countFences rest = 0
      · exact .inl (passFence_sound hrest)
      · exact .inr (by omega)
    · rw [countFences_step hfence] at h
      rw [advanceLine, if_neg hfence]
      exact advanceLine_sound (b :: c :: rest) state _ h

theorem foldl_sound : ∀ (lines : List Text) {state : FenceState}, state.Sound →
    (lines.foldl (fun state line => advanceLine line state true) state).Sound
  | [], _, h => h
  | line :: rest, state, h => foldl_sound rest (advanceLine_sound line state true (.inl h))

theorem advanceFence_sound {state : FenceState} (h : state.Sound) (chunk : Text) :
    (advanceFence state chunk).Sound :=
  foldl_sound _ h

/-! ## Repairs -/

theorem length_reopenPrefix {state : FenceState} (h : state.Sound) :
    (reopenPrefix state).length ≤ 36 := by
  have hshort : state.info.length ≤ 32 := h.short
  unfold reopenPrefix
  split
  next =>
    rw [List.length_append, List.length_append, List.length_singleton]
    show 3 + state.info.length + 1 ≤ 36
    omega
  next => exact Nat.zero_le _

theorem length_closeSuffix (state : FenceState) : (closeSuffix state).length = 4 * state.weight := by
  unfold closeSuffix FenceState.weight
  cases state.isOpen <;> rfl

theorem seam_reopenPrefix (state : FenceState) (t : Text) : Seam (reopenPrefix state) t := by
  unfold reopenPrefix
  split
  next => exact .inr (.inl (List.getLast?_concat))
  next => exact .inl rfl

theorem countFences_reopenPrefix {state : FenceState} (h : state.Sound) :
    countFences (reopenPrefix state) = state.weight := by
  unfold reopenPrefix FenceState.weight
  split
  next =>
    have hinfo := countFences_append_newline [] state.info
    rw [List.append_assoc, countFences_fence, hinfo, h.plain]
    rfl
  next => rfl

theorem countFences_append_closeSuffix (t : Text) (state : FenceState) :
    countFences (t ++ closeSuffix state) = countFences t + state.weight := by
  unfold closeSuffix FenceState.weight
  split
  next => exact countFences_append_newline CODE_FENCE t
  next => rw [List.append_nil, Nat.add_zero]

/-- What a section gets sent has an even number of fences. -/
theorem countFences_rendered {start fence : FenceState} (hstart : start.Sound) {body : Text}
    (h : fence.weight = (start.weight + countFences body) % 2) :
    countFences (reopenPrefix start ++ body ++ closeSuffix fence) % 2 = 0 := by
  rw [countFences_append_closeSuffix, countFences_append (seam_reopenPrefix start body),
    countFences_reopenPrefix hstart]
  omega

end BackgroundAgents.Slack

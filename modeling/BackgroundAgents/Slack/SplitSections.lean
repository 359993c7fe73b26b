import BackgroundAgents.Slack.SectionLaws

/-!
# Splitting a text loses none of it

Source tokens meet at newlines (`Seamed`), so the loops over them keep the invariant of
the accumulator until they come to the end, or to the limit of sections with some text
left over (`Goes`). The truncation marker then goes onto the last piece, which may lose
its end but no half of a surrogate pair.
-/

namespace BackgroundAgents.Slack

open SlackSectionAccumulator

variable {text : Text} {maxChars maxSections : Nat} {acc : SlackSectionAccumulator} {done : Text}
variable {pieces : List Piece}

/-! ## Tokens -/

/-- Every token that is not empty has a seam with all that is before it. -/
def Seamed : Text → List Text → Prop
  | _, [] => True
  | before, token :: rest => (token = [] ∨ Seam before token) ∧ Seamed (before ++ token) rest

/-- Nothing, or whole lines. -/
def AtLineStart (before : Text) : Prop := before = [] ∨ before.getLast? = some newline

theorem AtLineStart.seam {before : Text} (h : AtLineStart before) (token : Text) :
    Seam before token := by
  rcases h with hnil | hlast
  · exact .inl hnil
  · exact .inr (.inl hlast)

theorem flatten_splitLines : ∀ rest line : Text, (splitLines rest line).flatten = line ++ rest
  | [], line => rfl
  | c :: rest, line => by
    unfold splitLines
    split
    next hc =>
      have ih := flatten_splitLines rest []
      rw [List.flatten_cons, List.flatten_cons, ih, hc]
      rfl
    next =>
      have ih := flatten_splitLines rest (line ++ [c])
      rw [ih, List.append_assoc]
      rfl

theorem seamed_splitLines : ∀ (rest line before : Text),
    AtLineStart before ∨ (line = [] ∧ rest.head? = some newline) →
      Seamed before (splitLines rest line)
  | [], line, before, h => by
    rcases h with hstart | ⟨_, hhead⟩
    · exact ⟨.inr (hstart.seam line), trivial⟩
    · cases hhead
  | c :: rest, line, before, h => by
    unfold splitLines
    split
    next hc =>
      refine ⟨?_, .inr (.inr (.inr rfl)), ?_⟩
      · rcases h with hstart | ⟨hnil, _⟩
        · exact .inr (hstart.seam line)
        · exact .inl hnil
      · exact seamed_splitLines rest [] _ (.inl (.inr List.getLast?_concat))
    next hc =>
      rcases h with hstart | ⟨_, hhead⟩
      · exact seamed_splitLines rest (line ++ [c]) before (.inl hstart)
      · exact absurd (Option.some.inj hhead) hc

theorem flatten_splitParagraphs : ∀ (rest paragraph : Text) (newlines : Nat),
    (splitParagraphs rest paragraph newlines).flatten =
      paragraph ++ List.replicate newlines newline ++ rest
  | [], paragraph, newlines => by
    unfold splitParagraphs
    split
    next =>
      show paragraph ++ (List.replicate newlines newline ++ ([] ++ [])) = _
      rw [List.append_nil, List.append_nil, List.append_nil]
    next => rfl
  | c :: rest, paragraph, newlines => by
    unfold splitParagraphs
    split
    next hc =>
      have ih := flatten_splitParagraphs rest paragraph (newlines + 1)
      rw [ih, hc, List.replicate_succ', List.append_assoc, List.append_assoc, List.append_assoc]
      rfl
    next =>
      split
      next =>
        have ih := flatten_splitParagraphs rest [c] 0
        rw [List.flatten_cons, List.flatten_cons, ih, List.append_assoc, List.append_assoc]
        rfl
      next =>
        have ih := flatten_splitParagraphs rest
          (paragraph ++ List.replicate newlines newline ++ [c]) 0
        rw [ih, List.replicate_zero, List.append_nil, List.append_assoc]
        rfl

theorem atLineStart_replicate (before : Text) {newlines : Nat} (h : 2 ≤ newlines) :
    AtLineStart (before ++ List.replicate newlines newline) := by
  obtain ⟨n, rfl⟩ : ∃ n, newlines = n + 1 := ⟨newlines - 1, by omega⟩
  rw [List.replicate_succ', ← List.append_assoc]
  exact .inr List.getLast?_concat

theorem seam_replicate (before : Text) {newlines : Nat} (h : 2 ≤ newlines) :
    Seam before (List.replicate newlines newline) := by
  obtain ⟨n, rfl⟩ : ∃ n, newlines = n + 1 := ⟨newlines - 1, by omega⟩
  exact .inr (.inr rfl)

theorem seamed_splitParagraphs : ∀ (rest paragraph : Text) (newlines : Nat) (before : Text),
    AtLineStart before → Seamed before (splitParagraphs rest paragraph newlines)
  | [], paragraph, newlines, before, h => by
    unfold splitParagraphs
    split
    next htwo => exact ⟨.inr (h.seam _), .inr (seam_replicate _ htwo), .inl rfl, trivial⟩
    next => exact ⟨.inr (h.seam _), trivial⟩
  | c :: rest, paragraph, newlines, before, h => by
    unfold splitParagraphs
    split
    next => exact seamed_splitParagraphs rest paragraph (newlines + 1) before h
    next =>
      split
      next htwo =>
        exact ⟨.inr (h.seam _), .inr (seam_replicate _ htwo),
          seamed_splitParagraphs rest [c] 0 _ (atLineStart_replicate _ htwo)⟩
      next => exact seamed_splitParagraphs rest _ 0 before h

/-! ## The loops -/

/-- The limit of sections was reached with some text left. -/
structure Stopped (text : Text) (maxChars maxSections : Nat) (acc : SlackSectionAccumulator) :
    Prop where
  truncated : acc.truncated = true
  count : acc.sections.length ≤ maxSections
  some : acc.sections ≠ []
  kept : ∃ done pieces, Holds text maxChars { acc with truncated := false } done pieces ∧
    acc.body = [] ∧ done <+: text ∧ done ≠ text

/-- How appending goes on, when it was to take the text up to a point. -/
def Goes (text : Text) (maxChars maxSections : Nat) (done : Text) :
    Bool × SlackSectionAccumulator → Prop
  | (true, acc) => acc.sections.length < maxSections ∧ ∃ pieces, Holds text maxChars acc done pieces
  | (false, acc) => Stopped text maxChars maxSections acc

/-- A flush in front of more text goes on, or stops at the limit. -/
theorem Holds.flush_or_stop (h : Holds text maxChars acc done pieces) (hsections : 1 ≤ maxSections)
    (hbelow : acc.sections.length < maxSections) {after : Text} (htext : text = done ++ after)
    (hafter : after ≠ []) (hcut : dividesPair text done.length = false) :
    (maxSections ≤ acc.flush.sections.length →
      Stopped text maxChars maxSections { acc.flush with truncated := true }) ∧
    (acc.flush.body = [] ∧ ∃ pieces, Holds text maxChars acc.flush done pieces) := by
  obtain ⟨hbody, kept, hkept⟩ := h.flush hcut
  refine ⟨fun hlimit => ?_, hbody, kept, hkept⟩
  have hlength := length_flush acc
  have hlive := hkept.live
  refine ⟨rfl, by show acc.flush.sections.length ≤ maxSections; omega, ?_, done, kept, ?_, hbody,
    ⟨after, htext.symm⟩, ?_⟩
  · intro hnil
    have hnone : acc.flush.sections = [] := hnil
    rw [hnone] at hlimit
    exact absurd hlimit (by show ¬ maxSections ≤ 0; omega)
  · have hsame : ({ acc.flush with truncated := false } : SlackSectionAccumulator) = acc.flush := by
      rw [← hlive]
    show Holds text maxChars { acc.flush with truncated := false } done kept
    rw [hsame]
    exact hkept
  · intro heq
    rw [htext] at heq
    exact hafter (List.append_right_eq_self.mp heq.symm)

section Loops

variable (hroom : 128 ≤ maxChars) (hsections : 1 ≤ maxSections)

include hroom hsections

theorem appendOversizedToken_goes {rest : Text} {acc : SlackSectionAccumulator} :
    ∀ {done after : Text} {pieces : List Piece}, Holds text maxChars acc done pieces →
      acc.body = [] → acc.sections.length < maxSections → text = done ++ rest ++ after →
      ∃ r, appendOversizedToken maxChars maxSections rest acc = .ok r ∧
        Goes text maxChars maxSections (done ++ rest) r := by
  induction hlength : rest.length using Nat.strongRecOn generalizing rest acc with
  | ind length ih =>
    intro done after pieces h hbody hbelow htext
    rw [appendOversizedToken]
    by_cases hrest : rest = []
    · rw [dif_pos hrest]
      refine ⟨_, rfl, hbelow, pieces, ?_⟩
      rw [hrest, List.append_nil]
      exact h
    · obtain ⟨n, acc', htake, hpos, hle, hpair, hsame, hholds⟩ :=
        h.takeHardSlice hbody hroom hrest
      have htaken : (rest.take n).length = n := by
        rw [List.length_take]
        omega
      rw [dif_neg hrest]
      split
      next e he =>
        rw [htake] at he
        cases he
      next taken acc'' hok =>
        rw [htake] at hok
        cases hok
        dsimp only
        rw [htaken]
        have hbelow' : acc'.sections.length < maxSections := by
          rw [hsame]
          exact hbelow
        by_cases hleft : rest.drop n = []
        · rw [if_pos hleft]
          have hall : rest.take n = rest := by
            have happend := List.take_append_drop n rest
            rwa [hleft, List.append_nil] at happend
          rw [hall] at hholds
          exact ⟨_, rfl, hbelow', pieces, hholds⟩
        · rw [if_neg hleft]
          have hshorter : n < rest.length := by
            have hdrop := List.length_pos_iff.mpr hleft
            rw [List.length_drop] at hdrop
            omega
          have htext' : text = (done ++ rest.take n) ++ (rest.drop n ++ after) := by
            rw [List.append_assoc, ← List.append_assoc (rest.take n), List.take_append_drop, htext,
              List.append_assoc]
          have hcut : dividesPair text (done ++ rest.take n).length = false := by
            rw [List.length_append, htaken, htext, dividesPair_inside done rest after hpos hshorter]
            exact hpair
          have hmore : rest.drop n ++ after ≠ [] := fun hnil =>
            hleft (List.append_eq_nil_iff.mp hnil).1
          obtain ⟨hstop, hbody', kept, hkept⟩ :=
            hholds.flush_or_stop hsections hbelow' htext' hmore hcut
          by_cases hlimit : maxSections ≤ acc'.flush.sections.length
          · rw [if_pos hlimit]
            exact ⟨_, rfl, hstop hlimit⟩
          · rw [if_neg hlimit]
            obtain ⟨r, hr, hgoes⟩ := ih (rest.drop n).length
              (by rw [List.length_drop]; omega) rfl hkept hbody' (by omega)
              (htext'.trans (List.append_assoc _ _ _).symm)
            refine ⟨r, hr, ?_⟩
            rwa [List.append_assoc, List.take_append_drop] at hgoes

theorem appendToken_goes {token after : Text} (h : Holds text maxChars acc done pieces)
    (hbelow : acc.sections.length < maxSections) (hseam : Seam done token) (hne : token ≠ [])
    (htext : text = done ++ token ++ after) :
    ∃ r, appendToken maxChars maxSections token acc = .ok r ∧
      Goes text maxChars maxSections (done ++ token) r := by
  unfold appendToken
  cases hfit : acc.tryAppend maxChars token with
  | some acc' =>
    obtain ⟨hholds, hsame⟩ := h.tryAppend hseam hne hfit
    exact ⟨_, rfl, by rw [hsame]; exact hbelow, pieces, hholds⟩
  | none =>
    have hcut : dividesPair text done.length = false := by
      have hseam' : Seam done (token ++ after) := by
        rcases hseam with hnil | hlast | hhead
        · exact .inl hnil
        · exact .inr (.inl hlast)
        · refine .inr (.inr ?_)
          rw [List.head?_append_of_ne_nil _ hne]
          exact hhead
      rw [htext, List.append_assoc]
      exact dividesPair_seam hseam'
    have hmore : token ++ after ≠ [] := fun hnil => hne (List.append_eq_nil_iff.mp hnil).1
    obtain ⟨hstop, hbody, kept, hkept⟩ := h.flush_or_stop hsections hbelow
      (htext.trans (List.append_assoc _ _ _)) hmore hcut
    dsimp only
    by_cases hlimit : maxSections ≤ acc.flush.sections.length
    · rw [if_pos hlimit]
      exact ⟨_, rfl, hstop hlimit⟩
    · rw [if_neg hlimit]
      cases hfit' : acc.flush.tryAppend maxChars token with
      | some acc' =>
        obtain ⟨hholds, hsame⟩ := hkept.tryAppend hseam hne hfit'
        exact ⟨_, rfl, by rw [hsame]; omega, kept, hholds⟩
      | none =>
        exact appendOversizedToken_goes hroom hsections hkept hbody (by omega) htext

theorem appendTokens_goes : ∀ {tokens : List Text} {acc : SlackSectionAccumulator}
    {done after : Text} {pieces : List Piece}, Holds text maxChars acc done pieces →
      acc.sections.length < maxSections → Seamed done tokens →
      text = done ++ tokens.flatten ++ after →
      ∃ r, appendTokens maxChars maxSections tokens acc = .ok r ∧
        Goes text maxChars maxSections (done ++ tokens.flatten) r
  | [], _, done, _, pieces, h, hbelow, _, _ => by
    refine ⟨_, rfl, hbelow, pieces, ?_⟩
    rw [List.flatten_nil, List.append_nil]
    exact h
  | token :: rest, acc, done, after, pieces, h, hbelow, hseamed, htext => by
    obtain ⟨hseam, hrest⟩ := hseamed
    unfold appendTokens
    by_cases hne : token = []
    · rw [if_pos hne]
      rw [hne, List.append_nil] at hrest
      rw [hne] at htext
      rw [hne]
      exact appendTokens_goes h hbelow hrest htext
    · rw [if_neg hne]
      have htext' : text = done ++ token ++ (rest.flatten ++ after) := by
        rw [htext, List.flatten_cons, List.append_assoc, List.append_assoc, List.append_assoc]
      obtain ⟨r, hr, hgoes⟩ :=
        appendToken_goes hroom hsections h hbelow (hseam.resolve_left hne) hne htext'
      rw [hr]
      obtain ⟨go, acc'⟩ := r
      cases go with
      | false => exact ⟨_, rfl, hgoes⟩
      | true =>
        obtain ⟨hbelow', kept, hkept⟩ := hgoes
        have hnext := appendTokens_goes hkept hbelow' hrest
          (htext'.trans (List.append_assoc _ _ _).symm)
        rwa [List.append_assoc] at hnext

theorem appendSourceToken_goes {token after : Text} (h : Holds text maxChars acc done pieces)
    (hbelow : acc.sections.length < maxSections) (hseam : token = [] ∨ Seam done token)
    (htext : text = done ++ token ++ after) :
    ∃ r, appendSourceToken maxChars maxSections token acc = .ok r ∧
      Goes text maxChars maxSections (done ++ token) r := by
  unfold appendSourceToken
  by_cases hne : token = []
  · rw [if_pos hne]
    refine ⟨_, rfl, hbelow, pieces, ?_⟩
    rw [hne, List.append_nil]
    exact h
  · rw [if_neg hne]
    split
    next => exact appendToken_goes hroom hsections h hbelow (hseam.resolve_left hne) hne htext
    next =>
      have hflatten := flatten_splitLines token []
      rw [List.nil_append] at hflatten
      have hstart : AtLineStart done ∨ (([] : Text) = [] ∧ token.head? = some newline) := by
        rcases hseam.resolve_left hne with hnil | hlast | hhead
        · exact .inl (.inl hnil)
        · exact .inl (.inr hlast)
        · exact .inr ⟨rfl, hhead⟩
      have htext' : text = done ++ (splitLines token []).flatten ++ after := by
        rw [hflatten]
        exact htext
      have hlines := appendTokens_goes hroom hsections h hbelow
        (seamed_splitLines token [] done hstart) htext'
      rwa [hflatten] at hlines

theorem appendSourceTokens_goes : ∀ {tokens : List Text} {acc : SlackSectionAccumulator}
    {done : Text} {pieces : List Piece}, Holds text maxChars acc done pieces →
      acc.sections.length < maxSections → Seamed done tokens → text = done ++ tokens.flatten →
      ∃ acc', appendSourceTokens maxChars maxSections tokens acc = .ok acc' ∧
        (Stopped text maxChars maxSections acc' ∨
          (acc'.sections.length < maxSections ∧
            ∃ pieces, Holds text maxChars acc' text pieces))
  | [], acc, done, pieces, h, hbelow, _, htext => by
    rw [List.flatten_nil, List.append_nil] at htext
    rw [← htext] at h
    exact ⟨acc, rfl, .inr ⟨hbelow, pieces, h⟩⟩
  | token :: rest, acc, done, pieces, h, hbelow, hseamed, htext => by
    obtain ⟨hseam, hrest⟩ := hseamed
    have htext' : text = done ++ token ++ rest.flatten := by
      rw [htext, List.flatten_cons, List.append_assoc]
    obtain ⟨r, hr, hgoes⟩ := appendSourceToken_goes hroom hsections h hbelow hseam htext'
    unfold appendSourceTokens
    rw [hr]
    obtain ⟨go, acc'⟩ := r
    cases go with
    | false => exact ⟨acc', rfl, .inl hgoes⟩
    | true =>
      obtain ⟨hbelow', kept, hkept⟩ := hgoes
      exact appendSourceTokens_goes hkept hbelow' hrest htext'

end Loops

/-! ## The truncation marker -/

theorem length_truncationPointer : truncationPointer.length = 52 := by decide +kernel

theorem countFences_append_pointer (t : Text) :
    countFences (t ++ truncationPointer) = countFences t := by
  have hhead : truncationPointer.head? = some newline := by decide +kernel
  have hnone : countFences truncationPointer = 0 := by decide +kernel
  rw [countFences_append (.inr (.inr hhead)), hnone, Nat.add_zero]

/-- Without the fence at the end, a section is still most of what it had of the text. -/
theorem withoutClosing_eq (t : Text) (fence : FenceState) :
    ∃ m, (if closingFence.isSuffixOf (t ++ closeSuffix fence) then
        (t ++ closeSuffix fence).take ((t ++ closeSuffix fence).length - closingFence.length)
      else t ++ closeSuffix fence) = t.take m ∧ m ≤ t.length ∧
      (t ++ closeSuffix fence).length ≤ m + 4 := by
  have hfour : closingFence.length = 4 := rfl
  unfold closeSuffix
  by_cases hopen : fence.isOpen = true
  · have hsuffix : closingFence.isSuffixOf (t ++ closingFence) = true :=
      List.isSuffixOf_iff_suffix.mpr (List.suffix_append _ _)
    rw [if_pos hopen, if_pos hsuffix, List.length_append, hfour, Nat.add_sub_cancel, List.take_left]
    exact ⟨t.length, List.take_length.symm, Nat.le_refl _, Nat.le_refl _⟩
  · rw [if_neg hopen, List.append_nil]
    by_cases hsuffix : closingFence.isSuffixOf t = true
    · rw [if_pos hsuffix, hfour]
      exact ⟨_, rfl, Nat.sub_le _ _, by omega⟩
    · rw [if_neg hsuffix]
      exact ⟨t.length, List.take_length.symm, Nat.le_refl _, by omega⟩

/-- A part of a text up to a cut between code points, or all of it. -/
def CutFrom (content whole : Text) : Prop :=
  content = whole ∨
    ∃ k, 0 < k ∧ k < whole.length ∧ content = whole.take k ∧ dividesPair whole k = false

/-- The marker makes a piece of a piece. -/
theorem withTruncationMarker_piece (hroom : 128 ≤ maxChars) {p : Piece} (hp : p.Made maxChars) :
    ∃ q : Piece, q.text = withTruncationMarker p.text maxChars ∧ q.pointed = true ∧
      q.text.length ≤ maxChars ∧ countFences q.text % 2 = 0 ∧ CutFrom q.content p.content := by
  obtain ⟨⟨start, body, fence, hstart, rfl⟩, hshort, heven⟩ := hp
  rw [Piece.text_rendered] at hshort heven ⊢
  have hpointer := length_truncationPointer
  have hprefixed := length_reopenPrefix hstart
  unfold withTruncationMarker
  by_cases hfits : (reopenPrefix start ++ body ++ closeSuffix fence).length +
      truncationPointer.length ≤ maxChars
  · rw [if_pos hfits]
    refine ⟨{ Piece.rendered start body fence with pointed := true }, ?_, rfl, ?_⟩
    · unfold Piece.text Piece.rendered reopenPrefix closeSuffix
      cases start.isOpen <;> rfl
    · have htext : ({ Piece.rendered start body fence with pointed := true } : Piece).text =
          reopenPrefix start ++ body ++ closeSuffix fence ++ truncationPointer := by
        unfold Piece.text Piece.rendered reopenPrefix closeSuffix
        cases start.isOpen <;> rfl
      rw [htext, List.length_append, countFences_append_pointer]
      exact ⟨hfits, heven, .inl rfl⟩
  · rw [if_neg hfits]
    dsimp only
    obtain ⟨m, hcontent, hm, hlong⟩ := withoutClosing_eq (reopenPrefix start ++ body) fence
    rw [hcontent]
    have hfour : closingFence.length = 4 := rfl
    obtain ⟨n, hslice, hn, hnlen, hpair, _, hmax⟩ := slice_spec
      ((reopenPrefix start ++ body).take m)
      (maxChars - truncationPointer.length - closingFence.length)
    have hmlen : ((reopenPrefix start ++ body).take m).length = m := by
      rw [List.length_take]
      omega
    rw [hmlen] at hnlen hmax
    rw [List.length_append] at hm
    have hlt : n < m := by omega
    obtain ⟨k, hk⟩ : ∃ k, n = (reopenPrefix start).length + k :=
      ⟨n - (reopenPrefix start).length, by omega⟩
    have hklt : k < body.length := by omega
    have hsliced : ((reopenPrefix start ++ body).take m).take n =
        reopenPrefix start ++ body.take k := by
      rw [List.take_take, Nat.min_eq_left (by omega), hk, List.take_length_add_append]
    have hbody : dividesPair body k = false := by
      have hwhole := dividesPair_inside [] ((reopenPrefix start ++ body).take m)
        ((reopenPrefix start ++ body).drop m) (k := n) (by omega) (by omega)
      have hinside := dividesPair_inside (reopenPrefix start) body [] (k := k) (by omega)
        hklt
      rw [List.nil_append, List.take_append_drop, List.length_nil, Nat.zero_add, hpair] at hwhole
      rw [List.append_nil, ← hk, hwhole] at hinside
      exact hinside.symm
    rw [hslice, hsliced]
    generalize hcount : countFences (reopenPrefix start ++ body.take k) = count
    have htext : ({ Piece.rendered start body fence with
          content := body.take k
          closed := decide (count % 2 ≠ 0)
          pointed := true } : Piece).text =
        reopenPrefix start ++ body.take k ++ (if count % 2 ≠ 0 then closingFence else []) ++
          truncationPointer := by
      unfold Piece.text Piece.rendered reopenPrefix
      cases start.isOpen <;> simp only [decide_eq_true_eq] <;> rfl
    refine ⟨_, htext, rfl, ?_, ?_, .inr ⟨k, by omega, hklt, rfl, hbody⟩⟩
    · have hkept : (reopenPrefix start ++ body.take k).length = n := by
        rw [← hsliced, List.length_take, hmlen]
        omega
      rw [htext, List.length_append, List.length_append, hkept]
      split
      next => omega
      next =>
        rw [List.length_nil]
        omega
    · rw [htext, countFences_append_pointer]
      split
      next hodd =>
        have hclosed := countFences_append_newline CODE_FENCE (reopenPrefix start ++ body.take k)
        have hone : countFences CODE_FENCE = 1 := rfl
        have hsame : countFences (reopenPrefix start ++ body.take k ++ closingFence) = _ := hclosed
        rw [hsame]
        omega
      next heven' =>
        rw [List.append_nil]
        omega

/-! ## `splitIntoSlackSections` -/

/-- Sections that hold a text: without what was inserted they make up the text, or, when the
last one has the truncation marker, a part of it, and none of its surrogate pairs is divided. -/
structure Assembles (text : Text) (pieces : List Piece) (sections : List Text) : Prop where
  sections : sections = pieces.map Piece.text
  whole : ((∀ p ∈ pieces, p.pointed = false) ∧ contents pieces = text) ∨
    ∃ front last, pieces = front ++ [last] ∧ (∀ p ∈ front, p.pointed = false) ∧
      last.pointed = true ∧ contents pieces <+: text ∧ contents pieces ≠ text
  undivided : Undivided text pieces

/-- What the accumulator makes of a text: sections in their room, with fences in pairs. -/
structure Splits (text : Text) (maxChars maxSections : Nat) (sections : List Text) : Prop where
  count : sections.length ≤ maxSections
  short : ∀ t ∈ sections, t.length ≤ maxChars
  even : ∀ t ∈ sections, countFences t % 2 = 0
  assembles : ∃ pieces, Assembles text pieces sections

theorem Piece.Made.not_pointed {p : Piece} (h : p.Made maxChars) : p.pointed = false := by
  obtain ⟨start, body, fence, _, rfl⟩ := h.rendered
  rfl

theorem Holds.splits (h : Holds text maxChars acc text pieces)
    (hbelow : acc.sections.length < maxSections) :
    Splits text maxChars maxSections acc.flush.sections := by
  obtain ⟨hbody, kept, hkept⟩ := h.flush (dividesPair_length text)
  have hlength := length_flush acc
  have hcovered := hkept.covered
  rw [hbody, List.append_nil] at hcovered
  refine ⟨by omega, ?_, ?_, kept, hkept.sections, ?_, hkept.undivided⟩
  · intro t ht
    rw [hkept.sections] at ht
    obtain ⟨p, hp, rfl⟩ := List.mem_map.mp ht
    exact (hkept.made p hp).short
  · intro t ht
    rw [hkept.sections] at ht
    obtain ⟨p, hp, rfl⟩ := List.mem_map.mp ht
    exact (hkept.made p hp).even
  · exact .inl ⟨fun p hp => (hkept.made p hp).not_pointed, hcovered⟩

theorem CutFrom.initial {content whole : Text} (h : CutFrom content whole) :
    content <+: whole := by
  rcases h with rfl | ⟨k, _, _, rfl, _⟩
  · exact List.prefix_rfl
  · exact List.take_prefix k whole

theorem Stopped.splits (hroom : 128 ≤ maxChars) (h : Stopped text maxChars maxSections acc) :
    ∃ sections, acc.finish maxChars = .ok sections ∧
      Splits text maxChars maxSections sections := by
  obtain ⟨done, pieces, hholds, hbody, hdone, hne⟩ := h.kept
  have hsections : acc.sections = pieces.map Piece.text := hholds.sections
  have hcovered : contents pieces ++ acc.body = done := hholds.covered
  rw [hbody, List.append_nil] at hcovered
  obtain ⟨front, last, rfl⟩ : ∃ front last, pieces = front ++ [last] := by
    refine (List.eq_nil_or_concat' pieces).resolve_left fun hnil => ?_
    rw [hnil] at hsections
    exact h.some hsections
  obtain ⟨q, htext, hpointed, hshort, heven, hcut⟩ :=
    withTruncationMarker_piece hroom (hholds.made last List.mem_concat_self)
  rw [List.map_append, List.map_singleton] at hsections
  have hfinish : acc.finish maxChars = .ok ((front ++ [q]).map Piece.text) := by
    unfold SlackSectionAccumulator.finish
    rw [if_pos h.truncated, hsections, List.getLast?_concat, List.dropLast_concat,
      List.map_append, List.map_singleton, htext]
  have hmade : ∀ p ∈ front, p.Made maxChars := fun p hp =>
    hholds.made p (List.mem_append_left _ hp)
  have hcount := h.count
  rw [hsections, List.length_append, List.length_map, List.length_singleton] at hcount
  rw [contents_concat] at hcovered
  have hinitial : contents (front ++ [q]) <+: done := by
    rw [contents_concat, ← hcovered]
    exact List.prefix_append_right_inj _ |>.mpr hcut.initial
  refine ⟨_, hfinish, ?_, ?_, ?_, front ++ [q], rfl, ?_, ?_⟩
  · rw [List.length_map, List.length_append, List.length_singleton]
    exact hcount
  · intro t ht
    obtain ⟨p, hp, rfl⟩ := List.mem_map.mp ht
    rcases List.mem_append.mp hp with hp | hp
    · exact (hmade p hp).short
    · rw [List.mem_singleton.mp hp]
      exact hshort
  · intro t ht
    obtain ⟨p, hp, rfl⟩ := List.mem_map.mp ht
    rcases List.mem_append.mp hp with hp | hp
    · exact (hmade p hp).even
    · rw [List.mem_singleton.mp hp]
      exact heven
  · refine .inr ⟨front, q, rfl, fun p hp => (hmade p hp).not_pointed, hpointed,
      hinitial.trans hdone, fun heq => ?_⟩
    rw [heq] at hinitial
    exact hne (hdone.eq_of_length_le hinitial.length_le)
  · have hfront : Undivided text front := fun part hpart =>
      hholds.undivided part (hpart.trans (List.prefix_append _ _))
    apply hfront.concat
    obtain ⟨after, hafter⟩ := hdone
    rw [contents_concat]
    rcases hcut with heq | ⟨k, hpos, hlt, heq, hpair⟩
    · have hall := hholds.undivided (front ++ [last]) List.prefix_rfl
      rw [contents_concat] at hall
      rw [heq]
      exact hall
    · have hinside := dividesPair_inside (contents front) last.content after hpos hlt
      rw [hcovered, hafter, hpair] at hinside
      have hlength : (last.content.take k).length = k := by
        rw [List.length_take]
        omega
      rw [heq, List.length_append, hlength]
      exact hinside

/-- A text that is not blank is split without loss; of a blank one there are no sections. -/
theorem splitIntoSlackSections_splits (text : Text) (maxChars maxSections : Nat)
    (hroom : 128 ≤ maxChars) (hsections : 1 ≤ maxSections) :
    ∃ sections, splitIntoSlackSections text maxChars maxSections = .ok sections ∧
      sections.length ≤ maxSections ∧ (∀ t ∈ sections, t.length ≤ maxChars) ∧
      (maxChars < text.length → ∀ t ∈ sections, countFences t % 2 = 0) ∧
      (trim text = [] → sections = []) ∧
      (trim text ≠ [] → ∃ pieces, Assembles text pieces sections) := by
  unfold splitIntoSlackSections
  by_cases hblank : trim text = []
  · rw [if_pos hblank]
    exact ⟨[], rfl, Nat.zero_le _, fun _ h => absurd h List.not_mem_nil,
      fun _ _ h => absurd h List.not_mem_nil, fun _ => rfl, fun h => absurd hblank h⟩
  · rw [if_neg hblank]
    by_cases hshort : text.length ≤ maxChars
    · rw [if_pos hshort]
      refine ⟨[text], rfl, hsections, ?_, fun h => absurd h (Nat.not_lt.mpr hshort),
        fun h => absurd h hblank, fun _ => ?_⟩
      · intro t ht
        rw [List.mem_singleton.mp ht]
        exact hshort
      · refine ⟨[{ reopened := none, content := text, closed := false, pointed := false }],
          ?_, .inl ⟨?_, List.append_nil text⟩, ?_⟩
        · show [text] = [[] ++ text ++ [] ++ []]
          rw [List.nil_append, List.append_nil, List.append_nil]
        · intro p hp
          rw [List.mem_singleton.mp hp]
        · intro front hfront
          rcases List.prefix_cons_iff.mp hfront with rfl | ⟨t, rfl, hnil⟩
          · rfl
          · rw [List.prefix_nil.mp hnil]
            show dividesPair text (text ++ []).length = false
            rw [List.append_nil]
            exact dividesPair_length text
    · rw [if_neg hshort]
      have htext : text = [] ++ (splitParagraphs text [] 0).flatten :=
        (flatten_splitParagraphs text [] 0).symm
      obtain ⟨acc, hacc, hends⟩ := appendSourceTokens_goes hroom hsections
        (holds_start text maxChars) hsections (seamed_splitParagraphs text [] 0 [] (.inl rfl)) htext
      rw [hacc]
      have hsplits : ∃ sections, acc.finish maxChars = .ok sections ∧
          Splits text maxChars maxSections sections := by
        rcases hends with hstopped | ⟨hbelow, pieces, hholds⟩
        · exact hstopped.splits hroom
        · refine ⟨acc.flush.sections, ?_, hholds.splits hbelow⟩
          unfold SlackSectionAccumulator.finish
          rw [hholds.live]
          rfl
      obtain ⟨sections, hfinish, hsplit⟩ := hsplits
      exact ⟨sections, hfinish, hsplit.count, hsplit.short, fun _ => hsplit.even,
        fun h => absurd h hblank, fun _ => hsplit.assembles⟩

theorem splitIntoSlackSections_splits_long :
    ∃ sections, splitIntoSlackSections (List.replicate 300 backtick) 128 2 = .ok sections ∧
      sections.length ≤ 2 ∧ (∀ t ∈ sections, t.length ≤ 128) ∧
      ∀ t ∈ sections, countFences t % 2 = 0 := by
  obtain ⟨sections, hok, hcount, hshort, heven, _⟩ :=
    splitIntoSlackSections_splits (List.replicate 300 backtick) 128 2 (by decide) (by decide)
  exact ⟨sections, hok, hcount, hshort, heven (by rw [List.length_replicate]; decide)⟩

/-- A blank text is lost. -/
theorem blank_not_assembled :
    splitIntoSlackSections [0x20] 128 1 = .ok [] ∧ ∀ pieces, ¬ Assembles [0x20] pieces [] := by
  refine ⟨by decide, fun pieces h => ?_⟩
  obtain rfl : pieces = [] := List.map_eq_nil_iff.mp h.sections.symm
  rcases h.whole with ⟨_, hwhole⟩ | ⟨front, last, hnil, _⟩
  · cases hwhole
  · exact absurd hnil.symm (List.append_ne_nil_of_right_ne_nil _ (List.cons_ne_nil _ _))

end BackgroundAgents.Slack

import BackgroundAgents.Slack.SplitSections

/-!
# No control token in a post

What an agent posts to Slack is sanitized first and split into sections afterwards
(`notifySections`), and the split puts text of its own between the parts: the fence that is
closed, and at the top of the next section the fence that is reopened, with the info string of
the line that opened it. A token could be put together from that string and the text under it.
It never is: a token goes on over a newline only in its label, so the sanitizer has already
seen it whole, from the line that opened the fence to the `>` under it (`TokenShape.section`).
-/

namespace BackgroundAgents.Slack

open Regexes Regexes.Regex

def opening : UInt16 := 0x3c

/-! ## Tokens -/

/-- Patterns of which no match has the character. -/
def Avoids (r : Regex UInt16) (c : UInt16) : Prop := ∀ t, r.Matches t → c ∉ t

section

variable {r s : Regex UInt16} {c : UInt16}

theorem avoids_one {p : UInt16 → Bool} (h : p c = false) : Avoids (one p) c := by
  intro t ht hmem
  obtain ⟨a, rfl, ha⟩ := ht
  rw [← List.mem_singleton.mp hmem, h] at ha
  exact Bool.false_ne_true ha

theorem avoids_many {p : UInt16 → Bool} (h : p c = false) : Avoids (many p) c := by
  intro t ht hmem
  have hc := ht c hmem
  rw [h] at hc
  exact Bool.false_ne_true hc

theorem Avoids.seq (hr : Avoids r c) (hs : Avoids s c) : Avoids (seq r s) c := by
  intro t ht hmem
  obtain ⟨u, v, rfl, hu, hv⟩ := ht
  exact (List.mem_append.mp hmem).elim (hr u hu) (hs v hv)

theorem Avoids.alt (hr : Avoids r c) (hs : Avoids s c) : Avoids (alt r s) c :=
  fun t ht => ht.elim (hr t) (hs t)

theorem Avoids.opt (hr : Avoids r c) : Avoids (opt r) c := by
  intro t ht
  rcases ht with rfl | ht
  · exact List.not_mem_nil
  · exact hr t ht

theorem Avoids.lit (hr : Avoids r c) : ∀ {l : Text}, c ∉ l → Avoids (lit l r) c
  | [], _ => hr
  | a :: l, h => by
    have ha : decide (c = a) = false := decide_eq_false fun heq => h (heq ▸ List.mem_cons_self)
    exact (avoids_one ha).seq (Avoids.lit hr fun hmem => h (List.mem_cons_of_mem a hmem))

theorem avoids_exactly {l : Text} (h : c ∉ l) : Avoids (exactly l) c := (avoids_many rfl).lit h

theorem avoids_plus {p : UInt16 → Bool} (h : p c = false) : Avoids (plus p) c :=
  (avoids_one h).seq (avoids_many h)

theorem lit_matches : ∀ {l t : Text}, (lit l r).Matches t ↔ ∃ v, t = l ++ v ∧ r.Matches v
  | [], t => by
    constructor
    · exact fun h => ⟨t, rfl, h⟩
    · intro h
      obtain ⟨v, rfl, hv⟩ := h
      exact hv
  | a :: l, t => by
    constructor
    · intro h
      obtain ⟨u, v, rfl, ⟨b, rfl, hb⟩, hv⟩ := h
      obtain ⟨w, rfl, hw⟩ := lit_matches.mp hv
      rw [of_decide_eq_true hb]
      exact ⟨w, rfl, hw⟩
    · intro h
      obtain ⟨v, rfl, hv⟩ := h
      exact ⟨[a], l ++ v, rfl, ⟨a, rfl, decide_eq_true rfl⟩, lit_matches.mpr ⟨v, rfl, hv⟩⟩

end

/-- A label, with its bar, and the end of a token. -/
theorem labelled_matches {t : Text} :
    labelled.Matches t ↔
      ∃ x, t = x ++ [closing] ∧ (x = [] ∨ ∃ y, x = pipe :: y ∧ closing ∉ y) := by
  constructor
  · intro h
    obtain ⟨x, v, rfl, hx, ⟨b, rfl, hb⟩⟩ := h
    refine ⟨x, by rw [of_decide_eq_true hb], ?_⟩
    rcases hx with hx | ⟨a, y, rfl, ⟨p, rfl, hp⟩, hy⟩
    · exact .inl hx
    · rw [of_decide_eq_true hp]
      exact .inr ⟨y, rfl, fun hmem => of_decide_eq_true (hy closing hmem) rfl⟩
  · intro h
    obtain ⟨x, rfl, hx⟩ := h
    refine ⟨x, [closing], rfl, ?_, closing, rfl, decide_eq_true rfl⟩
    rcases hx with rfl | ⟨y, rfl, hy⟩
    · exact .inl rfl
    · refine .inr ⟨[pipe], y, rfl, ⟨pipe, rfl, decide_eq_true rfl⟩, ?_⟩
      intro a ha
      exact decide_eq_true fun heq => hy (heq ▸ ha)

/-- Tokens go from `<` to `>`, and one with a newline in it is one however it goes on from
there to the next `>`. -/
structure TokenShape (r : Regex UInt16) : Prop where
  begins : ∀ t, r.Matches t → t.head? = some opening
  ends : r.EndsWith closing
  resumed : ∀ u v w, r.Matches (u ++ newline :: v) → closing ∉ w → r.Matches (u ++ w ++ [closing])

/-- The part of an appended text before a unit that is not in what it is appended to. -/
theorem past_of_notMem {a b u v : Text} {c : UInt16} (h : u ++ c :: v = a ++ b) (hc : c ∉ a) :
    ∃ u', u = a ++ u' ∧ u' ++ c :: v = b := by
  rcases List.append_eq_append_iff.mp h with ⟨w, rfl, hw⟩ | ⟨w, hu, hb⟩
  · cases w with
    | nil => exact ⟨[], by rw [List.append_nil, List.append_nil], hw⟩
    | cons d w =>
      rw [(List.cons.inj hw).1] at hc
      exact absurd (List.mem_append_right u List.mem_cons_self) hc
  · exact ⟨w, hu, hb.symm⟩

theorem tokenShape {core : Regex UInt16} {l : Text} (hhead : l.head? = some opening)
    (hl : newline ∉ l) (hcore : Avoids core newline) :
    TokenShape (lit l (seq core labelled)) where
  begins := by
    intro t ht
    obtain ⟨v, rfl, _⟩ := lit_matches.mp ht
    rw [List.head?_append, hhead, Option.some_or]
  ends := labelled_endsWith.seq.lit l
  resumed := by
    intro u v w ht hw
    obtain ⟨rest, heq, k, lab, rfl, hk, hlab⟩ := lit_matches.mp ht
    obtain ⟨x, rfl, hx⟩ := labelled_matches.mp hlab
    -- the newline is in the label
    obtain ⟨u₁, rfl, hcut⟩ := past_of_notMem heq hl
    obtain ⟨u₂, rfl, hpast⟩ := past_of_notMem hcut (hcore k hk)
    rcases hx with rfl | ⟨y, rfl, hy⟩
    · have hlast : newline ∈ ([] : Text) ++ [closing] := by
        rw [← hpast]
        exact List.mem_append_right u₂ List.mem_cons_self
      exact absurd hlast (by decide)
    · cases u₂ with
      | nil => exact absurd (List.cons.inj hpast).1 (by decide)
      | cons d u₂ =>
        obtain rfl : d = pipe := (List.cons.inj hpast).1
        have hlabel : u₂ ++ newline :: v = y ++ [closing] := (List.cons.inj hpast).2
        have hinitial : u₂ <+: y := by
          have hlength := congrArg List.length hlabel
          rw [List.length_append, List.length_append, List.length_cons, List.length_singleton]
            at hlength
          refine List.prefix_of_prefix_length_le ⟨newline :: v, hlabel⟩ ⟨[closing], rfl⟩ ?_
          omega
        refine lit_matches.mpr ⟨k ++ ((pipe :: (u₂ ++ w)) ++ [closing]), ?_, k, _, rfl, hk,
          labelled_matches.mpr ⟨pipe :: (u₂ ++ w), rfl, .inr ⟨u₂ ++ w, rfl, ?_⟩⟩⟩
        · simp only [List.append_assoc, List.cons_append]
        · intro hmem
          exact (List.mem_append.mp hmem).elim (fun h => hy (hinitial.subset h)) hw

theorem broadcast_shape : TokenShape BROADCAST_MENTION_RE := by
  refine tokenShape rfl (by decide +kernel) ?_
  refine (avoids_exactly (by decide +kernel)).alt ((avoids_exactly (by decide +kernel)).alt
    ((avoids_exactly (by decide +kernel)).alt ?_))
  exact (avoids_plus (by decide +kernel)).lit (by decide +kernel)

theorem link_shape : TokenShape URL_LINK_RE := by
  have haddress : Avoids address newline := avoids_plus (by decide +kernel)
  have hscheme : Avoids (opt (one (· = 0x73))) newline := (avoids_one (by decide +kernel)).opt
  refine tokenShape rfl (by decide +kernel) ?_
  refine Avoids.alt ?_ (haddress.lit (by decide +kernel))
  exact (hscheme.seq (haddress.lit (by decide +kernel))).lit (by decide +kernel)

theorem mention_shape : TokenShape USER_MENTION_RE := by
  have hid : Avoids (plus fun c => upper c || digit c) newline := avoids_plus (by decide +kernel)
  exact tokenShape rfl (by decide +kernel) hid

/-! ## One section -/

/-- A token that begins behind a text is in what is behind it. -/
theorem suffix_of_head {a b t : Text} {c : UInt16} (h : t <:+ a ++ b) (hhead : t.head? = some c)
    (hc : c ∉ a) : t <:+ b := by
  rcases List.suffix_or_suffix_of_suffix h (List.suffix_append a b) with hin | ⟨z, rfl⟩
  · exact hin
  · obtain ⟨front, hfront⟩ := h
    rw [← List.append_assoc] at hfront
    have hz : front ++ z = a := List.append_cancel_right hfront
    cases z with
    | nil => exact List.suffix_rfl
    | cons d z =>
      obtain rfl : d = c := Option.some.inj hhead
      rw [← hz] at hc
      exact absurd (List.mem_append_right front List.mem_cons_self) hc

variable {r : Regex UInt16}

theorem TokenShape.of_prepend (hr : TokenShape r) {a t : Text} (ha : opening ∉ a)
    (h : r.Contains (a ++ t)) : r.Contains t := by
  obtain ⟨m, hm, hmatches⟩ := h
  refine ⟨m, ?_, hmatches⟩
  obtain ⟨x, y, hxy⟩ := hm
  have hsuffix : m ++ y <:+ a ++ t := ⟨x, by rw [← hxy, List.append_assoc]⟩
  have hhead : (m ++ y).head? = some opening := by
    rw [List.head?_append, hr.begins m hmatches, Option.some_or]
  exact (List.prefix_append m y).isInfix.trans (suffix_of_head hsuffix hhead ha).isInfix

theorem closing_notMem_closeSuffix (fence : FenceState) : closing ∉ closeSuffix fence := by
  unfold closeSuffix
  split
  · decide
  · exact List.not_mem_nil

/-- A token over a newline, with a text put in its place: it goes on to the next `>`. -/
theorem TokenShape.over_newline (hr : TokenShape r) {p q : Text}
    (hmatches : r.Matches (p ++ newline :: q)) (hq : q ≠ []) (t after : Text) :
    r.Contains (p ++ t ++ (q ++ after)) := by
  have hclosing : closing ∈ t ++ q := by
    obtain ⟨w, hw⟩ := hr.ends _ hmatches
    obtain ⟨front, last, rfl⟩ := List.eq_nil_or_concat q |>.resolve_left hq
    rw [List.concat_eq_append] at hw ⊢
    rw [← List.cons_append, ← List.append_assoc] at hw
    rw [(List.cons.inj (List.append_inj' hw rfl).2).1]
    exact List.mem_append_right _ (List.mem_append_right _ (List.mem_singleton_self _))
  obtain ⟨w, rest, hsplit, hw⟩ := List.eq_append_cons_of_mem hclosing
  refine ⟨p ++ w ++ [closing], ⟨[], rest ++ after, ?_⟩, hr.resumed p q w hmatches hw⟩
  calc [] ++ (p ++ w ++ [closing]) ++ (rest ++ after)
      = p ++ (w ++ closing :: rest) ++ after := by simp
    _ = p ++ t ++ (q ++ after) := by rw [← hsplit]; simp only [List.append_assoc]

/-- **One section.** The repairs make no token of a text without one. -/
theorem TokenShape.section (hr : TokenShape r) {start fence : FenceState}
    {before body after : Text} (hinfo : start.info <:+: before)
    (h : ¬ r.Contains (before ++ body ++ after)) :
    ¬ r.Contains (reopenPrefix start ++ body ++ closeSuffix fence) := by
  intro hcontains
  have hbody : body <:+: before ++ body ++ after := ⟨before, after, rfl⟩
  have hinside : start.info <:+: before ++ body ++ after := by
    rw [List.append_assoc]
    exact hinfo.trans (List.prefix_append before _).isInfix
  have hreopened := hcontains.of_append hr.ends (closing_notMem_closeSuffix fence)
  unfold reopenPrefix at hreopened
  split at hreopened
  next =>
    -- a token in the line that reopens the fence is in its info string
    have hline : ∀ m, m <:+: CODE_FENCE ++ start.info ++ [newline] → ¬ r.Matches m := by
      intro m hm hmatches
      have hfence : r.Contains (CODE_FENCE ++ start.info) :=
        Regex.Contains.of_append (u := [newline]) hr.ends (by decide) ⟨m, hm, hmatches⟩
      exact h ((hr.of_prepend (by decide) hfence).mono hinside)
    obtain ⟨m, hm, hmatches⟩ := hreopened
    rcases List.infix_append_iff_ne_nil.mp hm with hm | hm | ⟨p, q, hp, hq, rfl, hpline, hqbody⟩
    · exact hline m hm hmatches
    · exact h ⟨m, hm.trans hbody, hmatches⟩
    · rcases List.suffix_concat_iff.mp hpline with rfl | ⟨p, rfl, hpfront⟩
      · exact absurd rfl hp
      · rw [List.append_assoc, List.singleton_append] at hmatches
        have hhead : p.head? = some opening := by
          have hbegins := hr.begins _ hmatches
          cases p with
          | nil => exact absurd (Option.some.inj hbegins) (by decide)
          | cons d p => exact hbegins
        obtain ⟨x, t, hbefore⟩ :=
          (suffix_of_head hpfront hhead (by decide)).isInfix.trans hinfo
        obtain ⟨z, hz⟩ := hqbody
        refine h ((hr.over_newline hmatches hq t z).mono ⟨x, after, ?_⟩)
        rw [← hbefore, ← hz]
        simp only [List.append_assoc]
  next => exact h (hreopened.mono hbody)

/-- Nor does the pointer to the session. -/
theorem TokenShape.pointed (hr : TokenShape r) {text : Text} (h : ¬ r.Contains text)
    (maxChars : Nat) : ¬ r.Contains (withTruncationMarker text maxChars) := by
  have hpointer : closing ∉ truncationPointer := by decide +kernel
  unfold withTruncationMarker
  split
  · exact fun hcontains => h (hcontains.of_append hr.ends hpointer)
  · intro hcontains
    have hcut := hcontains.of_append hr.ends hpointer
    have hfence : ∀ {needsClose : Prop} [Decidable needsClose],
        closing ∉ if needsClose then closingFence else [] := by
      intro needsClose _
      split
      · decide
      · exact List.not_mem_nil
    refine h ((hcut.of_append hr.ends hfence).mono ?_)
    unfold sliceAtCodePointBoundary
    refine (List.take_prefix _ _).isInfix.trans ?_
    split
    · exact (List.take_prefix _ _).isInfix
    · exact List.infix_rfl

/-! ## Where the info strings come from -/

theorem passFence_info (state : FenceState) (startsLine : Bool) (rest : Text) :
    (passFence state startsLine rest).info <:+: rest := by
  unfold passFence
  split
  · exact List.nil_infix
  · dsimp only
    split
    · exact normalizeFenceInfo_inside rest
    · exact List.nil_infix

theorem advanceLine_info : ∀ (line : Text) (state : FenceState) (startsLine : Bool),
    (advanceLine line state startsLine).info = state.info ∨
      (advanceLine line state startsLine).info <:+: line
  | [], _, _ => .inl rfl
  | [_], _, _ => .inl rfl
  | [_, _], _, _ => .inl rfl
  | a :: b :: c :: rest, state, startsLine => by
    have hrest : rest <:+: a :: b :: c :: rest := ⟨[a, b, c], [], List.append_nil _⟩
    by_cases hfence : [a, b, c] = CODE_FENCE
    · rw [advanceLine, if_pos hfence]
      refine .inr (List.IsInfix.trans ?_ hrest)
      rcases advanceLine_info rest (passFence state startsLine rest) false with heq | hinside
      · rw [heq]
        exact passFence_info state startsLine rest
      · exact hinside
    · rw [advanceLine, if_neg hfence]
      exact (advanceLine_info (b :: c :: rest) state _).imp_right
        fun hinside => hinside.trans (List.suffix_cons a _).isInfix

theorem line_inside : ∀ {lines : List Text} {line : Text}, line ∈ lines →
    line <:+: [newline].intercalate lines
  | [only], line, h => by
    have hsame : [newline].intercalate [only] = line := by
      rw [List.intercalate_singleton, List.mem_singleton.mp h]
    exact ⟨[], [], (List.append_nil line).trans hsame.symm⟩
  | first :: next :: rest, line, h => by
    rw [List.intercalate_cons_cons]
    rcases List.mem_cons.mp h with rfl | h
    · rw [List.append_assoc]
      exact (List.prefix_append _ _).isInfix
    · exact (line_inside h).trans (List.suffix_append _ _).isInfix

/-- The info string that is kept is the one before or of the text. -/
theorem advanceFence_info (state : FenceState) (chunk : Text) :
    (advanceFence state chunk).info = state.info ∨ (advanceFence state chunk).info <:+: chunk := by
  have hlines : ∀ line ∈ chunk.splitOn newline, line <:+: chunk := by
    intro line hline
    have hinside := line_inside hline
    rwa [List.intercalate_splitOn] at hinside
  unfold advanceFence
  generalize chunk.splitOn newline = lines at hlines
  induction lines generalizing state with
  | nil => exact .inl rfl
  | cons line lines ih =>
    rw [List.foldl_cons]
    have hline := hlines line List.mem_cons_self
    rcases ih (advanceLine line state true) (fun l hl => hlines l (List.mem_cons_of_mem _ hl)) with
      heq | hinside
    · rw [heq]
      exact (advanceLine_info line state true).imp_right fun h => h.trans hline
    · exact .inr hinside

/-! ## The sections of a text -/

/-- A section is a part of the text, between repairs from the text before it. -/
def TakenFrom (text piece : Text) : Prop :=
  ∃ start body fence before after, text = before ++ body ++ after ∧ start.info <:+: before ∧
    piece = reopenPrefix start ++ body ++ closeSuffix fence

theorem TakenFrom.grow {text piece : Text} (h : TakenFrom text piece) (more : Text) :
    TakenFrom (text ++ more) piece := by
  obtain ⟨start, body, fence, before, after, rfl, hinfo, hpiece⟩ := h
  exact ⟨start, body, fence, before, after ++ more, List.append_assoc _ _ _, hinfo, hpiece⟩

theorem TokenShape.takenFrom (hr : TokenShape r) {text piece : Text} (h : TakenFrom text piece)
    (hnone : ¬ r.Contains text) : ¬ r.Contains piece := by
  obtain ⟨start, body, fence, before, after, rfl, hinfo, rfl⟩ := h
  exact hr.section hinfo hnone

/-- An accumulator that has taken in `done`. -/
structure Sourced (acc : SlackSectionAccumulator) (done : Text) : Prop where
  sections : ∀ piece ∈ acc.sections, TakenFrom done piece
  current : ∃ before, done = before ++ acc.body ∧ acc.sectionStart.info <:+: before
  ended : acc.sectionEnd.info <:+: done

namespace Sourced

open SlackSectionAccumulator

variable {acc acc' : SlackSectionAccumulator} {done token rest taken : Text}
  {maxChars maxSections : Nat}

theorem initial : Sourced {} [] where
  sections := fun _ h => absurd h List.not_mem_nil
  current := ⟨[], rfl, List.infix_rfl⟩
  ended := List.infix_rfl

/-- The fence at the end of what follows. -/
theorem next_info (h : Sourced acc done) (token : Text) :
    (advanceFence acc.sectionEnd token).info <:+: done ++ token := by
  rcases advanceFence_info acc.sectionEnd token with heq | hinside
  · rw [heq]
    exact h.ended.trans (List.prefix_append done token).isInfix
  · exact hinside.trans (List.suffix_append done token).isInfix

theorem flush (h : Sourced acc done) : Sourced acc.flush done := by
  unfold SlackSectionAccumulator.flush
  split
  · exact h
  · obtain ⟨before, hdone, hinfo⟩ := h.current
    exact
      { sections := by
          intro piece hpiece
          rcases List.mem_append.mp hpiece with hpiece | hpiece
          · exact h.sections piece hpiece
          · rw [List.mem_singleton.mp hpiece]
            exact ⟨acc.sectionStart, acc.body, acc.sectionEnd, before, [],
              hdone.trans (List.append_nil _).symm, hinfo, rfl⟩
        current := ⟨done, (List.append_nil done).symm, h.ended⟩
        ended := h.ended }

theorem tryAppend (h : Sourced acc done) (hfit : acc.tryAppend maxChars token = some acc') :
    Sourced acc' (done ++ token) := by
  unfold SlackSectionAccumulator.tryAppend at hfit
  dsimp only at hfit
  split at hfit
  next => cases hfit
  next =>
    cases hfit
    obtain ⟨before, hdone, hinfo⟩ := h.current
    exact
      { sections := fun piece hpiece => (h.sections piece hpiece).grow token
        current := ⟨before, by rw [hdone, List.append_assoc], hinfo⟩
        ended := h.next_info token }

theorem slice_prefix (text : Text) (n : Nat) : sliceAtCodePointBoundary text n <+: text :=
  List.take_prefix _ _

theorem takeHardSlice (h : Sourced acc done)
    (hok : acc.takeHardSlice maxChars rest = .ok (taken, acc')) :
    taken <+: rest ∧ Sourced acc' (done ++ taken) := by
  unfold SlackSectionAccumulator.takeHardSlice at hok
  dsimp only at hok
  split at hok
  next => cases hok
  next =>
    cases hok
    refine ⟨?_, ?_⟩
    · unfold hardSlice
      dsimp only
      split
      · exact slice_prefix _ _
      · exact slice_prefix _ _
    · exact
        { sections := fun piece hpiece => (h.sections piece hpiece).grow _
          current := ⟨done, rfl, h.ended⟩
          ended := h.next_info _ }

/-- What an append of `rest` answers: it has taken in a part of it, and all when it goes on. -/
def Takes (done rest : Text) (answer : Except SectionError (Bool × SlackSectionAccumulator)) :
    Prop :=
  ∀ go acc, answer = .ok (go, acc) →
    ∃ more left, rest = more ++ left ∧ Sourced acc (done ++ more) ∧ (go = true → left = [])

theorem takes (h : Sourced acc (done ++ rest)) (go : Bool) :
    Takes done rest (.ok (go, acc)) := by
  intro go' acc' heq
  cases heq
  exact ⟨rest, [], (List.append_nil rest).symm, h, fun _ => rfl⟩

/-- Nothing more is taken in at the limit of sections. -/
theorem stops (h : Sourced acc done) (rest : Text) :
    Takes done rest (.ok (false, { acc with truncated := true })) := by
  intro go' acc' heq
  cases heq
  refine ⟨[], rest, rfl, ?_, Bool.noConfusion⟩
  rw [List.append_nil]
  exact { h with }

theorem Takes.after {answer : Except SectionError (Bool × SlackSectionAccumulator)}
    (h : Takes (done ++ taken) rest answer) : Takes done (taken ++ rest) answer := by
  intro go acc heq
  obtain ⟨more, left, rfl, hsourced, hall⟩ := h go acc heq
  rw [List.append_assoc] at hsourced
  exact ⟨taken ++ more, left, (List.append_assoc _ _ _).symm, hsourced, hall⟩

theorem appendOversizedToken (h : Sourced acc done) :
    Takes done rest (appendOversizedToken maxChars maxSections rest acc) := by
  induction hlength : rest.length using Nat.strongRecOn generalizing rest acc done with
  | ind length ih =>
    rw [SlackSectionAccumulator.appendOversizedToken]
    split
    next hrest =>
      refine takes ?_ true
      rwa [hrest, List.append_nil]
    next hrest =>
      split
      next =>
        intro go acc' heq
        cases heq
      next taken acc' hok =>
        obtain ⟨⟨left, hsplit⟩, hsourced⟩ := h.takeHardSlice hok
        have hleft : rest.drop taken.length = left := by rw [← hsplit, List.drop_left]
        have hpos := List.length_pos_iff.mpr (takeHardSlice_ne_nil maxChars hok)
        dsimp only
        rw [hleft, ← hsplit]
        refine Takes.after ?_
        split
        next hnil =>
          refine takes ?_ true
          rwa [hnil, List.append_nil]
        next =>
          split
          · exact hsourced.flush.stops left
          · refine ih left.length ?_ hsourced.flush rfl
            rw [← hlength, ← hsplit, List.length_append]
            omega

theorem appendToken (h : Sourced acc done) :
    Takes done token (appendToken maxChars maxSections token acc) := by
  unfold SlackSectionAccumulator.appendToken
  split
  next hfit => exact takes (h.tryAppend hfit) true
  next =>
    split
    · exact h.flush.stops token
    · split
      next hfit => exact takes (h.flush.tryAppend hfit) true
      next => exact h.flush.appendOversizedToken

theorem appendTokens : ∀ {tokens : List Text} {acc : SlackSectionAccumulator} {done : Text},
    Sourced acc done → Takes done tokens.flatten (appendTokens maxChars maxSections tokens acc)
  | [], acc, done, h => by
    refine takes (?_ : Sourced acc (done ++ [])) true
    rwa [List.append_nil]
  | token :: rest, acc, done, h => by
    unfold SlackSectionAccumulator.appendTokens
    rw [List.flatten_cons]
    split
    next hnil =>
      rw [hnil]
      exact appendTokens h
    next =>
      cases hanswer : SlackSectionAccumulator.appendToken maxChars maxSections token acc with
      | error e =>
        intro go acc' heq
        cases heq
      | ok r =>
        obtain ⟨go, acc'⟩ := r
        obtain ⟨more, left, hsplit, hsourced, hall⟩ := h.appendToken go acc' hanswer
        cases go with
        | false =>
          intro go acc heq
          cases heq
          exact ⟨more, left ++ rest.flatten, by rw [hsplit, List.append_assoc], hsourced,
            Bool.noConfusion⟩
        | true =>
          rw [hall rfl, List.append_nil] at hsplit
          rw [← hsplit] at hsourced
          exact (appendTokens hsourced).after

theorem appendSourceToken (h : Sourced acc done) :
    Takes done token (appendSourceToken maxChars maxSections token acc) := by
  unfold SlackSectionAccumulator.appendSourceToken
  split
  next hnil =>
    refine takes ?_ true
    rwa [hnil, List.append_nil]
  next =>
    split
    · exact h.appendToken
    · have hlines : Takes done (splitLines token []).flatten
          (SlackSectionAccumulator.appendTokens maxChars maxSections (splitLines token []) acc) :=
        h.appendTokens
      rwa [flatten_splitLines, List.nil_append] at hlines

theorem appendSourceTokens : ∀ {tokens : List Text} {acc acc' : SlackSectionAccumulator}
    {done : Text}, Sourced acc done →
      appendSourceTokens maxChars maxSections tokens acc = .ok acc' →
      ∃ more left, tokens.flatten = more ++ left ∧ Sourced acc' (done ++ more)
  | [], acc, acc', done, h, hok => by
    cases hok
    refine ⟨[], [], rfl, ?_⟩
    rwa [List.append_nil]
  | token :: rest, acc, acc', done, h, hok => by
    unfold SlackSectionAccumulator.appendSourceTokens at hok
    rw [List.flatten_cons]
    cases hanswer : SlackSectionAccumulator.appendSourceToken maxChars maxSections token acc with
    | error e =>
      rw [hanswer] at hok
      cases hok
    | ok r =>
      rw [hanswer] at hok
      obtain ⟨go, acc₁⟩ := r
      obtain ⟨more, left, hsplit, hsourced, hall⟩ := h.appendSourceToken go acc₁ hanswer
      cases go with
      | false =>
        cases hok
        exact ⟨more, left ++ rest.flatten, by rw [hsplit, List.append_assoc], hsourced⟩
      | true =>
        rw [hall rfl, List.append_nil] at hsplit
        rw [← hsplit] at hsourced
        obtain ⟨more', left', hsplit', hsourced'⟩ := appendSourceTokens hsourced hok
        rw [List.append_assoc] at hsourced'
        exact ⟨token ++ more', left', by rw [hsplit', List.append_assoc], hsourced'⟩

end Sourced

variable {policy : MentionPolicy} {text : Text} {sections : List Text} {maxChars maxSections : Nat}

/-- **No section has a token** that its text has not. -/
theorem TokenShape.pieces (hr : TokenShape r) (hnone : ¬ r.Contains text)
    (hok : splitIntoSlackSections text maxChars maxSections = .ok sections) :
    ∀ piece ∈ sections, ¬ r.Contains piece := by
  unfold splitIntoSlackSections at hok
  split at hok
  next =>
    cases hok
    exact fun piece h => absurd h List.not_mem_nil
  next =>
    split at hok
    next =>
      cases hok
      intro piece hpiece
      rw [List.mem_singleton.mp hpiece]
      exact hnone
    next =>
      split at hok
      next => cases hok
      next acc hacc =>
        obtain ⟨more, left, hsplit, hsourced⟩ := Sourced.initial.appendSourceTokens hacc
        have htext := flatten_splitParagraphs text [] 0
        have hmore : ¬ r.Contains more := by
          refine fun hcontains => hnone (hcontains.mono ?_)
          have hinitial : more <+: (splitParagraphs text [] 0).flatten := ⟨left, hsplit.symm⟩
          rw [htext] at hinitial
          exact hinitial.isInfix
        have hpieces : ∀ {acc : SlackSectionAccumulator}, Sourced acc ([] ++ more) →
            ∀ piece ∈ acc.sections, ¬ r.Contains piece :=
          fun h piece hpiece => hr.takenFrom (h.sections piece hpiece) hmore
        unfold SlackSectionAccumulator.finish at hok
        split at hok
        next =>
          split at hok
          next last hlast =>
            cases hok
            intro piece hpiece
            rcases List.mem_append.mp hpiece with hpiece | hpiece
            · exact hpieces hsourced piece (List.dropLast_subset _ hpiece)
            · rw [List.mem_singleton.mp hpiece]
              exact hr.pointed (hpieces hsourced last (List.mem_of_getLast? hlast)) maxChars
          next => cases hok
        next =>
          cases hok
          exact hpieces hsourced.flush

theorem Clean.pieces (h : Clean policy text)
    (hok : splitIntoSlackSections text maxChars maxSections = .ok sections) :
    ∀ piece ∈ sections, Clean policy piece := by
  intro piece hpiece
  exact
    { broadcast := broadcast_shape.pieces h.broadcast hok piece hpiece
      link := link_shape.pieces h.link hok piece hpiece
      mention := fun hpolicy => mention_shape.pieces (h.mention hpolicy) hok piece hpiece }

/-! ## What is posted -/

def SECTION_TEXT_MAX_CHARS : Nat := 3000
def MAX_RESPONSE_SECTIONS : Nat := 20
def RAW_TEXT_INPUT_MAX_LENGTH : Nat := 12000
def MARKDOWN_BLOCK_MAX_CHARS : Nat := 12000

/-- The sections of `handleSlackNotify`, under the policy of the settings. -/
def notifySections (text : Text) (mentionsPolicy : MentionPolicy) :
    Except SectionError (List Text) :=
  splitIntoSlackSections
    (sanitizeAgentText text
      { mentionsPolicy := mentionsPolicy, maxLength := RAW_TEXT_INPUT_MAX_LENGTH }).text
    SECTION_TEXT_MAX_CHARS MAX_RESPONSE_SECTIONS

/-- The text of `buildResponseBlock`. -/
def responseBlock (text : Text) : Except SectionError (Option Text) :=
  (splitIntoSlackSections (stripBroadcastMentions text) MARKDOWN_BLOCK_MAX_CHARS 1).map List.head?

/-- `text.replace(unit, entity)` of a unit, everywhere. -/
def replaceUnit (unit : UInt16) (entity text : Text) : Text :=
  text.flatMap fun c => if c = unit then entity else [c]

def escapeMrkdwnText (text : Text) : Text :=
  replaceUnit closing (units "&gt;")
    (replaceUnit opening (units "&lt;") (replaceUnit 0x26 (units "&amp;") text))

/-- The sections of a warning of a completion. -/
def warningSections (warning : Text) : Except SectionError (List Text) :=
  splitIntoSlackSections (units ":warning: " ++ escapeMrkdwnText warning) SECTION_TEXT_MAX_CHARS
    MAX_RESPONSE_SECTIONS

theorem notMem_replaceUnit {unit c : UInt16} {entity text : Text} (hc : c ∉ entity)
    (h : c = unit ∨ c ∉ text) : c ∉ replaceUnit unit entity text := by
  intro hmem
  obtain ⟨d, hd, hcd⟩ := List.mem_flatMap.mp hmem
  split at hcd
  next => exact hc hcd
  next hne =>
    rw [List.mem_singleton] at hcd
    rcases h with rfl | h
    · exact hne hcd.symm
    · exact h (hcd ▸ hd)

/-- Nothing can be a token without `<`. -/
theorem clean_of_notMem (h : opening ∉ text) : Clean policy text := by
  have hnone : ∀ {r : Regex UInt16}, TokenShape r → ¬ r.Contains text := by
    intro r hr hcontains
    obtain ⟨m, hm, hmatches⟩ := hcontains
    have hmem : opening ∈ m := by
      obtain ⟨t, rfl⟩ := List.head?_eq_some_iff.mp (hr.begins m hmatches)
      exact List.mem_cons_self
    exact h (hm.subset hmem)
  exact ⟨hnone broadcast_shape, hnone link_shape, fun _ => hnone mention_shape⟩

theorem opening_notMem_escaped (text : Text) : opening ∉ escapeMrkdwnText text :=
  notMem_replaceUnit (by decide +kernel)
    (.inr (notMem_replaceUnit (by decide +kernel) (.inl rfl)))

/-- **Posts without control tokens.** Whatever the agent writes and wherever its text is cut,
no section of a notification has a broadcast mention, a link or, unless they are allowed, a user
mention; the reply of a completed prompt has no broadcast mention; and a warning has none of
the three. -/
theorem slack_posts_clean :
    (∀ text policy sections, notifySections text policy = .ok sections →
      ∀ piece ∈ sections, Clean policy piece) ∧
    (∀ text body, responseBlock text = .ok (some body) → ¬ BROADCAST_MENTION_RE.Contains body) ∧
    ∀ warning sections, warningSections warning = .ok sections →
      ∀ piece ∈ sections, Clean .strip piece := by
  refine ⟨fun text policy sections hok => ?_, fun text body hok => ?_,
    fun warning sections hok => ?_⟩
  · exact (truncateForSlack_clean (sanitizeLoop_clean text false false) _).pieces hok
  · unfold responseBlock at hok
    cases hsections :
        splitIntoSlackSections (stripBroadcastMentions text) MARKDOWN_BLOCK_MAX_CHARS 1 with
    | error e =>
      rw [hsections] at hok
      cases hok
    | ok sections =>
      rw [hsections] at hok
      have hbody : body ∈ sections := List.mem_of_mem_head? (Except.ok.inj hok)
      have hstripped : ¬ BROADCAST_MENTION_RE.Contains (stripBroadcastMentions text) :=
        broadcastRule.fixed_iff.mp (broadcastRule.pass.exhausted_fixed text)
      exact broadcast_shape.pieces hstripped hsections body hbody
  · refine Clean.pieces (clean_of_notMem fun hmem => ?_) hok
    rcases List.mem_append.mp hmem with hmem | hmem
    · exact absurd hmem (by decide +kernel)
    · exact opening_notMem_escaped warning hmem

theorem slack_posts_clean_warning :
    Clean .strip (units ":warning: &lt;!here&gt; &amp;") :=
  slack_posts_clean.2.2 (units "<!here> &") [units ":warning: &lt;!here&gt; &amp;"]
    (by decide +kernel) _ List.mem_cons_self

end BackgroundAgents.Slack

import BackgroundAgents.Slack.SectionFences

/-!
# The sections of a long text

`Holds` is the invariant of the accumulator: its sections are pieces of the text that
was appended so far, each closed off and within its room, and the body is the rest of
it. A token joins the body at a newline (`Seam`), so its fences add to those of the
body; a token that no section takes is cut between code points (`hardSlice_spec`).
-/

namespace BackgroundAgents.Slack

open SlackSectionAccumulator

/-! ## Surrogate pairs -/

theorem newline_not_surrogate : isHighSurrogate newline = false ∧ isLowSurrogate newline = false := by
  decide

theorem high_not_low {c : UInt16} (h : isHighSurrogate c = true) : isLowSurrogate c = false := by
  unfold isHighSurrogate between at h
  unfold isLowSurrogate between
  rw [Bool.and_eq_true, decide_eq_true_iff, decide_eq_true_iff] at h
  rw [Bool.and_eq_false_iff]
  left
  rw [decide_eq_false_iff_not, UInt16.not_le]
  exact UInt16.lt_of_le_of_lt h.2 (by decide)

theorem dividesPair_length (text : Text) : dividesPair text text.length = false := by
  unfold dividesPair
  split
  next => rfl
  next i hi =>
    rw [List.getElem?_eq_none (by omega : text.length ≤ i + 1)]
    exact Bool.and_false _

/-- Inside a part of a text it is the part that counts. -/
theorem dividesPair_inside (before part after : Text) {k : Nat} (hpos : 0 < k)
    (hlt : k < part.length) :
    dividesPair (before ++ part ++ after) (before.length + k) = dividesPair part k := by
  obtain ⟨i, rfl⟩ : ∃ i, k = i + 1 := ⟨k - 1, by omega⟩
  have hget : ∀ j, j < part.length →
      (before ++ part ++ after)[before.length + j]? = part[j]? := by
    intro j hj
    rw [List.append_assoc, List.getElem?_append_right (Nat.le_add_right _ _),
      Nat.add_sub_cancel_left, List.getElem?_append_left hj]
  show ((before ++ part ++ after)[before.length + i]?.any isHighSurrogate &&
    (before ++ part ++ after)[before.length + (i + 1)]?.any isLowSurrogate) = _
  rw [hget i (by omega), hget (i + 1) hlt]
  rfl

/-- A seam is between code points. -/
theorem dividesPair_seam {a b : Text} (h : Seam a b) : dividesPair (a ++ b) a.length = false := by
  unfold dividesPair
  split
  next => rfl
  next i hi =>
    rcases h with hnil | hlast | hhead
    · rw [hnil] at hi
      cases hi
    · have hat : (a ++ b)[i]? = some newline := by
        rw [List.getElem?_append_left (by omega), show i = a.length - 1 by omega,
          ← List.getLast?_eq_getElem?]
        exact hlast
      rw [hat]
      show (isHighSurrogate newline && _) = false
      rw [newline_not_surrogate.1, Bool.false_and]
    · have hat : (a ++ b)[i + 1]? = some newline := by
        rw [List.getElem?_append_right (by omega), show i + 1 - a.length = 0 by omega,
          ← List.head?_eq_getElem?]
        exact hhead
      rw [hat]
      show (_ && isLowSurrogate newline) = false
      rw [newline_not_surrogate.2, Bool.and_false]

theorem slice_spec (text : Text) (maxChars : Nat) :
    ∃ n, sliceAtCodePointBoundary text maxChars = text.take n ∧ n ≤ maxChars ∧ n ≤ text.length ∧
      dividesPair text n = false ∧ min maxChars text.length ≤ n + 1 ∧
      (n = maxChars ∨ n + 1 = maxChars ∨ n = text.length) := by
  unfold sliceAtCodePointBoundary
  dsimp only
  by_cases hpair : dividesPair text (min maxChars text.length) = true
  · rw [if_pos hpair]
    unfold dividesPair at hpair
    split at hpair
    next => cases hpair
    next i hi =>
      rw [Bool.and_eq_true] at hpair
      obtain ⟨low, hlow, _⟩ := (Option.any_eq_true _ _).mp hpair.2
      obtain ⟨hlt, _⟩ := List.getElem?_eq_some_iff.mp hlow
      have hundivided : dividesPair text i = false := by
        unfold dividesPair
        split
        next => rfl
        next j =>
          obtain ⟨c, hc, hhigh⟩ := (Option.any_eq_true _ _).mp hpair.1
          rw [hc]
          show (_ && isLowSurrogate c) = false
          rw [high_not_low hhigh, Bool.and_false]
      have hback : min maxChars text.length - 1 = i := by omega
      rw [hback]
      exact ⟨i, rfl, by omega, by omega, hundivided, by omega, by omega⟩
  · rw [if_neg hpair]
    exact ⟨_, rfl, by omega, by omega, Bool.eq_false_iff.mpr hpair, by omega, by omega⟩

/-! ## Pieces -/

/-- A section, with what was inserted into it. -/
structure Piece where
  /-- The info string of the fence that is reopened at the top. -/
  reopened : Option Text
  content : Text
  closed : Bool
  /-- The truncation marker is at the end. -/
  pointed : Bool

namespace Piece

def text (p : Piece) : Text :=
  (match p.reopened with
    | some info => CODE_FENCE ++ info ++ [newline]
    | none => []) ++
  p.content ++ (if p.closed then closingFence else []) ++
  (if p.pointed then truncationPointer else [])

/-- The piece that a section is rendered from. -/
def rendered (start : FenceState) (body : Text) (fence : FenceState) : Piece where
  reopened := if start.isOpen then some start.info else none
  content := body
  closed := fence.isOpen
  pointed := false

theorem text_rendered (start : FenceState) (body : Text) (fence : FenceState) :
    (rendered start body fence).text = reopenPrefix start ++ body ++ closeSuffix fence := by
  unfold text rendered reopenPrefix closeSuffix
  cases start.isOpen <;> exact List.append_nil _

/-- A piece within its room, with an even number of fences. -/
structure Made (maxChars : Nat) (p : Piece) : Prop where
  rendered : ∃ start body fence, start.Sound ∧ p = rendered start body fence
  short : p.text.length ≤ maxChars
  even : countFences p.text % 2 = 0

end Piece

/-- The text in the pieces. -/
def contents (pieces : List Piece) : Text := (pieces.map Piece.content).flatten

theorem contents_concat (pieces : List Piece) (p : Piece) :
    contents (pieces ++ [p]) = contents pieces ++ p.content := by
  unfold contents
  rw [List.map_append, List.flatten_append]
  exact congrArg (_ ++ ·) (List.append_nil _)

/-- No pair of surrogates of the text is divided between pieces. -/
def Undivided (text : Text) (pieces : List Piece) : Prop :=
  ∀ front, front <+: pieces → dividesPair text (contents front).length = false

theorem Undivided.concat {text : Text} {pieces : List Piece} (h : Undivided text pieces)
    {p : Piece} (hcut : dividesPair text (contents (pieces ++ [p])).length = false) :
    Undivided text (pieces ++ [p]) := by
  intro front hfront
  rcases List.prefix_concat_iff.mp hfront with heq | hfront
  · rw [heq]
    exact hcut
  · exact h front hfront

/-! ## The invariant -/

structure Holds (text : Text) (maxChars : Nat) (acc : SlackSectionAccumulator) (done : Text)
    (pieces : List Piece) : Prop where
  live : acc.truncated = false
  sections : acc.sections = pieces.map Piece.text
  made : ∀ p ∈ pieces, p.Made maxChars
  covered : contents pieces ++ acc.body = done
  undivided : Undivided text pieces
  fits : acc.body ≠ [] → (acc.render acc.body acc.sectionEnd).length ≤ maxChars
  weight : acc.sectionEnd.weight = (acc.sectionStart.weight + countFences acc.body) % 2
  start : acc.sectionStart.Sound
  ended : acc.sectionEnd.Sound
  fresh : acc.body = [] → acc.sectionStart = acc.sectionEnd

variable {text : Text} {maxChars maxSections : Nat} {acc : SlackSectionAccumulator} {done : Text}
variable {pieces : List Piece}

theorem holds_start (text : Text) (maxChars : Nat) : Holds text maxChars {} [] [] where
  live := rfl
  sections := rfl
  made := fun _ h => absurd h List.not_mem_nil
  covered := rfl
  undivided := fun front h => by
    rw [List.prefix_nil.mp h]
    rfl
  fits := fun h => absurd rfl h
  weight := rfl
  start := closedFence_sound
  ended := closedFence_sound
  fresh := fun _ => rfl

theorem length_flush (acc : SlackSectionAccumulator) :
    acc.flush.sections.length ≤ acc.sections.length + 1 := by
  unfold flush
  split
  next => exact Nat.le_succ _
  next => exact Nat.le_of_eq List.length_append

/-- A flush at a place between code points makes a piece of the body. -/
theorem Holds.flush (h : Holds text maxChars acc done pieces)
    (hcut : dividesPair text done.length = false) :
    acc.flush.body = [] ∧ ∃ pieces, Holds text maxChars acc.flush done pieces := by
  unfold SlackSectionAccumulator.flush
  by_cases hbody : acc.body = []
  · rw [if_pos hbody]
    exact ⟨hbody, pieces, h⟩
  · rw [if_neg hbody]
    have htext := Piece.text_rendered acc.sectionStart acc.body acc.sectionEnd
    have hcontents : contents (pieces ++
        [Piece.rendered acc.sectionStart acc.body acc.sectionEnd]) = done := by
      rw [contents_concat]
      exact h.covered
    refine ⟨rfl, pieces ++ [Piece.rendered acc.sectionStart acc.body acc.sectionEnd], ?_⟩
    exact
      { h with
        sections := by
          rw [List.map_append, List.map_singleton, htext, ← h.sections]
          rfl
        made := by
          intro p hp
          rcases List.mem_append.mp hp with hp | hp
          · exact h.made p hp
          · rw [List.mem_singleton.mp hp]
            refine ⟨⟨_, _, _, h.start, rfl⟩, ?_, ?_⟩
            · rw [htext]
              exact h.fits hbody
            · rw [htext]
              exact countFences_rendered h.start h.weight
        covered := (List.append_nil _).trans hcontents
        undivided := by
          apply h.undivided.concat
          rw [hcontents]
          exact hcut
        fits := fun h => absurd rfl h
        weight := (Nat.mod_eq_of_lt (Nat.lt_succ_of_le acc.sectionEnd.weight_le)).symm
        start := h.ended
        fresh := fun _ => rfl }

theorem Holds.seam (h : Holds text maxChars acc done pieces) {token : Text}
    (hseam : Seam done token) : Seam acc.body token := by
  by_cases hbody : acc.body = []
  · exact .inl hbody
  · rcases hseam with hnil | hlast | hhead
    · rw [← h.covered] at hnil
      exact .inl (List.append_eq_nil_iff.mp hnil).2
    · rw [← h.covered, List.getLast?_append_of_ne_nil _ hbody] at hlast
      exact .inr (.inl hlast)
    · exact .inr (.inr hhead)

/-- A token that fits joins the body. -/
theorem Holds.tryAppend (h : Holds text maxChars acc done pieces) {token : Text}
    {acc' : SlackSectionAccumulator} (hseam : Seam done token) (hne : token ≠ [])
    (hfit : acc.tryAppend maxChars token = some acc') :
    Holds text maxChars acc' (done ++ token) pieces ∧ acc'.sections = acc.sections := by
  unfold SlackSectionAccumulator.tryAppend at hfit
  dsimp only at hfit
  split at hfit
  next => cases hfit
  next hlength =>
    cases hfit
    refine ⟨?_, rfl⟩
    exact
      { h with
        covered := by
          rw [← h.covered, List.append_assoc]
        fits := fun _ => Nat.le_of_not_lt hlength
        weight := by
          show (advanceFence acc.sectionEnd token).weight =
            (acc.sectionStart.weight + countFences (acc.body ++ token)) % 2
          rw [weight_advanceFence, countFences_append (h.seam hseam), h.weight]
          omega
        ended := advanceFence_sound h.ended token
        fresh := fun hnil => absurd (List.append_eq_nil_iff.mp hnil).2 hne }

/-! ## Oversized tokens -/

theorem hardSlice_spec {start : FenceState} (hstart : start.Sound) (hroom : 128 ≤ maxChars)
    {rest : Text} (hne : rest ≠ []) :
    sliceAtCodePointBoundary rest (maxChars - (reopenPrefix start).length) ≠ [] ∧
      ∃ n, hardSlice maxChars start rest = rest.take n ∧ 0 < n ∧ n ≤ rest.length ∧
        dividesPair rest n = false ∧
        (reopenPrefix start ++ rest.take n ++
          closeSuffix (advanceFence start (rest.take n))).length ≤ maxChars := by
  have hprefixed := length_reopenPrefix hstart
  have hpos := List.length_pos_iff.mpr hne
  obtain ⟨n, htake, hn, hlen, hpair, _, hmax⟩ :=
    slice_spec rest (maxChars - (reopenPrefix start).length)
  have hfirst : (rest.take n).length = n := by
    rw [List.length_take]
    omega
  refine ⟨?_, ?_⟩
  · rw [htake]
    apply List.ne_nil_of_length_pos
    omega
  · unfold hardSlice
    dsimp only
    rw [htake]
    have hsuffix := length_closeSuffix (advanceFence start (rest.take n))
    have hweight := (advanceFence start (rest.take n)).weight_le
    split
    next =>
      obtain ⟨m, htake', hm, hlen', hpair', _, hmax'⟩ := slice_spec rest
        (maxChars - (reopenPrefix start).length -
          (closeSuffix (advanceFence start (rest.take n))).length)
      have hsuffix' := length_closeSuffix (advanceFence start (rest.take m))
      have hweight' := (advanceFence start (rest.take m)).weight_le
      refine ⟨m, htake', by omega, hlen', hpair', ?_⟩
      rw [List.length_append, List.length_append, List.length_take]
      omega
    next hshort =>
      refine ⟨n, rfl, by omega, hlen, hpair, ?_⟩
      rw [List.length_append, List.length_append]
      omega

/-- A hard slice fills a fresh section. -/
theorem Holds.takeHardSlice (h : Holds text maxChars acc done pieces) (hbody : acc.body = [])
    (hroom : 128 ≤ maxChars) {rest : Text} (hne : rest ≠ []) :
    ∃ n acc', acc.takeHardSlice maxChars rest = .ok (rest.take n, acc') ∧ 0 < n ∧
      n ≤ rest.length ∧ dividesPair rest n = false ∧ acc'.sections = acc.sections ∧
      Holds text maxChars acc' (done ++ rest.take n) pieces := by
  obtain ⟨hfirst, n, htaken, hpos, hlen, hpair, hfits⟩ := hardSlice_spec h.ended hroom hne
  have htakene : rest.take n ≠ [] := by
    apply List.ne_nil_of_length_pos
    rw [List.length_take]
    omega
  refine ⟨n, { acc with
      sectionStart := acc.sectionEnd
      body := rest.take n
      sectionEnd := advanceFence acc.sectionEnd (rest.take n) }, ?_, hpos, hlen, hpair, rfl, ?_⟩
  · unfold SlackSectionAccumulator.takeHardSlice
    dsimp only
    rw [htaken, if_neg (not_or.mpr ⟨hfirst, htakene⟩)]
  · exact
      { h with
        covered := by
          rw [← h.covered, hbody, List.append_nil]
        fits := fun _ => hfits
        weight := weight_advanceFence _ _
        start := h.ended
        ended := advanceFence_sound h.ended _
        fresh := fun hnil => absurd hnil htakene }

end BackgroundAgents.Slack

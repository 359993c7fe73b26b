import BackgroundAgents.Lib.Json
import BackgroundAgents.Harness.CodexText

/-!
# The text of a Codex turn is bounded and complete

`Document` is what a turn has said, with no limit: items in the order of their first
text, each its last completed text and the deltas since. The running length of the
turn's events is that of all its segments (`Counted`), so it stays below the limit; as
long as the document fits, the events show it (`Tracks`). Text that is not yet emitted
has set the dirty flag (`Synced`), so a forced event emits it.
-/

namespace BackgroundAgents.Harness.Codex

/-! ## Documents -/

/-- The items of a segment, with their texts. -/
abbrev Items := List (Text × Text)

def joinItems (items : Items) : Text := List.intercalate (asText "\n\n") (items.map Prod.snd)

structure Document where
  /-- The characters of the segments before the last compaction. -/
  closed : Nat := 0
  items : Items := []

namespace Document

variable (d : Document)

def text : Text := joinItems d.items

def total : Nat := d.closed + d.text.length

def record (itemId text : Text) (replace : Bool) : Document :=
  match Dict.get? d.items itemId with
  | some old =>
    { d with items := Dict.set d.items itemId (if replace then text else old ++ text) }
  | none => if text = [] then d else { d with items := Dict.set d.items itemId text }

/-- What a frame says. -/
def receive : Frame → Document
  | .agentMessageDelta itemId delta => d.record itemId delta false
  | .agentMessageCompleted itemId text => d.record itemId text true
  | _ => d

def accept : Frame → Document
  | .contextCompactionCompleted => { closed := d.total, items := [] }
  | frame => d.receive frame

end Document

/-- What is said in these frames. -/
def document (frames : List Frame) : Document := frames.foldl Document.accept {}

/-- The text has been within the limit all along. -/
def Fits (frames : List Frame) : Prop :=
  ∀ start, start <+: frames → (document start).total ≤ MAX_ASSISTANT_TEXT_CHARS

theorem document_concat (frames : List Frame) (frame : Frame) :
    document (frames ++ [frame]) = (document frames).accept frame := by
  unfold document
  rw [List.foldl_append]
  rfl

theorem length_separator : (asText "\n\n").length = 2 := by decide +kernel

theorem length_joinItems (items : Items) :
    (joinItems items).length =
      (items.map fun e => e.2.length).sum + 2 * (items.length - 1) := by
  unfold joinItems
  rw [Json.length_intercalate, length_separator, List.map_map, List.length_map]
  rfl

theorem length_joinItems_replaced {items : Items} (hkeys : (items.map Prod.fst).Nodup)
    {itemId old : Text} (h : Dict.get? items itemId = some old) (new : Text) :
    (joinItems (Dict.set items itemId new)).length + old.length =
      (joinItems items).length + new.length := by
  obtain ⟨hsum, hlength⟩ := Dict.sum_set (fun e => e.2.length) new hkeys h
  dsimp only at hsum
  rw [length_joinItems, length_joinItems, hlength]
  omega

theorem length_joinItems_new {items : Items} {itemId : Text}
    (h : Dict.get? items itemId = none) (new : Text) :
    (joinItems (Dict.set items itemId new)).length =
      (joinItems items).length + (if items ≠ [] then 2 else 0) + new.length := by
  have hset : Dict.set items itemId new = items ++ [(itemId, new)] :=
    if_neg (Dict.notMem_of_get? h)
  rw [hset, length_joinItems, length_joinItems, List.map_append, List.sum_append,
    List.length_append, List.map_singleton, List.sum_singleton, List.length_singleton]
  cases items with
  | nil =>
    show 0 + new.length + 2 * 0 = 0 + 0 + 0 + new.length
    omega
  | cons e items =>
    rw [if_pos (List.cons_ne_nil e items), List.length_cons]
    dsimp only
    omega

/-! ## What is recorded -/

namespace CodexTurnEvents

variable {s : CodexTurnEvents} {itemId text : Text} {replace : Bool}

/-- The retained items of the segment, with their texts. -/
def items (s : CodexTurnEvents) : Items := s.text.map fun e => (e.1, e.2.flatten)

theorem joined_eq (s : CodexTurnEvents) : s.joined = joinItems s.items := by
  unfold joined joinItems items
  rw [List.map_map]
  rfl

theorem get?_items (s : CodexTurnEvents) (itemId : Text) :
    Dict.get? s.items itemId = (Dict.get? s.text itemId).map List.flatten :=
  Dict.get?_map List.flatten itemId s.text

theorem previousLength_eq (s : CodexTurnEvents) (itemId : Text) (replace : Bool) :
    s.previousLength itemId replace =
      if replace then ((Dict.get? s.items itemId).getD []).length else 0 := by
  unfold previousLength
  rw [get?_items]
  cases replace with
  | false => rfl
  | true =>
    cases Dict.get? s.text itemId with
    | none => rfl
    | some parts => exact List.length_flatten.symm

theorem separatorLength_eq (s : CodexTurnEvents) (itemId : Text) :
    s.separatorLength itemId =
      if s.items ≠ [] ∧ Dict.get? s.items itemId = none then 2 else 0 := by
  have hnil : s.items = [] ↔ s.text = [] := List.map_eq_nil_iff
  unfold separatorLength
  simp only [get?_items, Option.map_eq_none_iff, ne_eq, hnil]

/-- Whether there is something to retain, or an item to be emptied. -/
def Retains (s : CodexTurnEvents) (itemId text : Text) (replace : Bool) : Prop :=
  text.take (s.remaining itemId replace) ≠ [] ∨
    (replace = true ∧ Dict.get? s.items itemId ≠ none)

theorem not_retains_iff (s : CodexTurnEvents) (itemId text : Text) (replace : Bool) :
    ¬ s.Retains itemId text replace ↔ text.take (s.remaining itemId replace) = [] ∧
      (replace = false ∨ Dict.get? s.text itemId = none) := by
  unfold Retains
  rw [not_or, not_not, not_and_or, Bool.not_eq_true, not_not, get?_items, Option.map_eq_none_iff]

structure Recorded (s s' : CodexTurnEvents) (itemId text : Text) (replace : Bool) : Prop where
  lastText : s'.lastText = s.lastText
  truncated : s'.textTruncated = (s.textTruncated || decide (s.remaining itemId replace < text.length))
  clean : s'.textDirty = false → s' = s
  kept : s.Retains itemId text replace →
    s'.items = Dict.set s.items itemId
        ((if replace then [] else (Dict.get? s.items itemId).getD []) ++
          text.take (s.remaining itemId replace)) ∧
      s'.textLength = s.textLength + s.separatorLength itemId - s.previousLength itemId replace +
        (text.take (s.remaining itemId replace)).length
  skipped : ¬ s.Retains itemId text replace → s'.items = s.items ∧ s'.textLength = s.textLength

theorem recordText_recorded (s : CodexTurnEvents) (itemId text : Text) (replace : Bool) :
    Recorded s (s.recordText itemId text replace) itemId text replace := by
  have hretains := not_retains_iff s itemId text replace
  unfold recordText
  dsimp only
  generalize hmarked : (if s.remaining itemId replace < text.length ∧ s.textTruncated = false then
    { s with textTruncated := true, textDirty := true } else s) = marked
  have hmarks : marked.lastText = s.lastText ∧ marked.items = s.items ∧
      marked.textLength = s.textLength ∧ (marked.textDirty = false → marked = s) ∧
      marked.textTruncated =
        (s.textTruncated || decide (s.remaining itemId replace < text.length)) := by
    rw [← hmarked]
    by_cases hover : s.remaining itemId replace < text.length ∧ s.textTruncated = false
    · rw [if_pos hover, decide_eq_true hover.1, Bool.or_true]
      exact ⟨rfl, rfl, rfl, fun h => Bool.noConfusion h, rfl⟩
    · rw [if_neg hover]
      refine ⟨rfl, rfl, rfl, fun _ => rfl, ?_⟩
      cases htruncated : s.textTruncated with
      | true => rfl
      | false => exact (decide_eq_false fun h => hover ⟨h, htruncated⟩).symm
  obtain ⟨hlast, hitems, hlength, hclean, htruncated⟩ := hmarks
  by_cases hskip : text.take (s.remaining itemId replace) = [] ∧
      (replace = false ∨ Dict.get? s.text itemId = none)
  · rw [if_pos hskip]
    exact ⟨hlast, htruncated, hclean, fun h => absurd h (hretains.mpr hskip),
      fun _ => ⟨hitems, hlength⟩⟩
  · rw [if_neg hskip]
    refine ⟨hlast, htruncated, fun h => Bool.noConfusion h, fun _ => ⟨?_, rfl⟩, fun h =>
      absurd (hretains.mp h) hskip⟩
    show (Dict.set s.text itemId _).map (fun e => (e.1, e.2.flatten)) = _
    rw [Dict.map_set, get?_items]
    show Dict.set s.items itemId _ = _
    congr 1
    generalize text.take (s.remaining itemId replace) = retained
    cases replace with
    | true =>
      show (if retained = [] then ([] : List Text) else [] ++ [retained]).flatten = [] ++ retained
      split
      next h => rw [h]; rfl
      next => exact List.append_nil _
    | false =>
      show (if retained = [] then (Dict.get? s.text itemId).getD [] else
        (Dict.get? s.text itemId).getD [] ++ [retained]).flatten = _ ++ retained
      have hgetD : (Option.map List.flatten (Dict.get? s.text itemId)).getD [] =
          ((Dict.get? s.text itemId).getD []).flatten := by
        cases Dict.get? s.text itemId <;> rfl
      rw [if_neg Bool.false_ne_true, hgetD]
      split
      next h => rw [h, List.append_nil]
      next => rw [List.flatten_append, List.flatten_singleton]

/-! ## The running length -/

/-- The length counts the closed segments and the current one, and is within the limit. -/
structure Counted (s : CodexTurnEvents) (closed : Nat) : Prop where
  keys : (s.items.map Prod.fst).Nodup
  length : s.textLength = closed + s.joined.length
  bound : s.textLength ≤ MAX_ASSISTANT_TEXT_CHARS

theorem Counted.recordText {closed : Nat} (h : s.Counted closed) (itemId text : Text)
    (replace : Bool) : (s.recordText itemId text replace).Counted closed := by
  have hr := recordText_recorded s itemId text replace
  have hlength := h.length
  have hbound := h.bound
  rw [joined_eq] at hlength
  by_cases hretains : s.Retains itemId text replace
  · obtain ⟨hitems, htotal⟩ := hr.kept hretains
    have htake : (text.take (s.remaining itemId replace)).length ≤ s.remaining itemId replace :=
      List.length_take_le _ _
    have hremaining : s.remaining itemId replace = ((MAX_ASSISTANT_TEXT_CHARS : Int) -
      s.textLength + s.previousLength itemId replace - s.separatorLength itemId).toNat := rfl
    have hprevious := s.previousLength_eq itemId replace
    have hseparator := s.separatorLength_eq itemId
    generalize hretained : text.take (s.remaining itemId replace) = retained at *
    refine ⟨?_, ?_, ?_⟩
    · rw [hitems]
      exact Dict.nodup_set h.keys _ _
    · rw [joined_eq, hitems]
      cases hget : Dict.get? s.items itemId with
      | some old =>
        have hset := length_joinItems_replaced h.keys hget
          ((if replace then [] else old) ++ retained)
        rw [hget] at hprevious hseparator
        rw [List.length_append] at hset
        rw [Option.getD_some]
        cases replace with
        | true =>
          have hold : s.previousLength itemId true = old.length := hprevious
          have hnone : s.separatorLength itemId = 0 := hseparator.trans (if_neg (by simp))
          rw [if_pos rfl] at hset ⊢
          rw [List.length_nil] at hset
          omega
        | false =>
          have hold : s.previousLength itemId false = 0 := hprevious
          have hnone : s.separatorLength itemId = 0 := hseparator.trans (if_neg (by simp))
          rw [if_neg Bool.false_ne_true] at hset ⊢
          omega
      | none =>
        have hset := length_joinItems_new hget retained
        rw [hget] at hprevious hseparator
        have hold : s.previousLength itemId replace = 0 := by
          rw [hprevious]
          cases replace <;> rfl
        have hnew : s.separatorLength itemId = if s.items ≠ [] then 2 else 0 := by
          rw [hseparator]
          simp only [and_true]
        have hempty : (if replace = true then ([] : Text) else Option.getD none []) ++ retained =
            retained := by
          cases replace <;> rfl
        rw [hempty]
        omega
    · have hpositive : retained ≠ [] ∨ s.separatorLength itemId = 0 := by
        rcases hretains with hne | ⟨_, hsome⟩
        · exact .inl (hretained ▸ hne)
        · right
          rw [hseparator]
          exact if_neg fun hnone => hsome hnone.2
      have hlen : retained ≠ [] → 0 < retained.length := List.length_pos_iff.mpr
      rw [htotal]
      rcases hpositive with hne | hzero
      · have hpos := hlen hne
        omega
      · omega
  · obtain ⟨hitems, htotal⟩ := hr.skipped hretains
    refine ⟨?_, ?_, ?_⟩
    · rw [hitems]
      exact h.keys
    · rw [joined_eq, hitems, htotal]
      exact hlength
    · rw [htotal]
      exact hbound

/-! ## Nothing is omitted -/

/-- The events have the whole document. -/
structure Tracks (s : CodexTurnEvents) (d : Document) : Prop where
  whole : s.textTruncated = false
  items : s.items = d.items
  counted : s.Counted d.closed

theorem Tracks.shown {d : Document} (h : s.Tracks d) : s.shown = d.text := by
  unfold CodexTurnEvents.shown
  rw [h.whole, if_neg Bool.false_ne_true, joined_eq, h.items]
  rfl

theorem Tracks.length {d : Document} (h : s.Tracks d) : s.textLength = d.total := by
  have hlength := h.counted.length
  rw [joined_eq, h.items] at hlength
  exact hlength

/-- A text that fits is retained as a whole. -/
theorem Tracks.remaining {d : Document} (h : s.Tracks d)
    (hfits : (d.record itemId text replace).total ≤ MAX_ASSISTANT_TEXT_CHARS) :
    text.length ≤ s.remaining itemId replace := by
  have hlength := h.length
  have hprevious := s.previousLength_eq itemId replace
  have hseparator := s.separatorLength_eq itemId
  have hkeys := h.counted.keys
  have hremaining : s.remaining itemId replace = ((MAX_ASSISTANT_TEXT_CHARS : Int) -
    s.textLength + s.previousLength itemId replace - s.separatorLength itemId).toNat := rfl
  have htotal : d.total = d.closed + (joinItems d.items).length := rfl
  rw [h.items] at hprevious hseparator hkeys
  unfold Document.record at hfits
  cases hget : Dict.get? d.items itemId with
  | some old =>
    have hset := length_joinItems_replaced hkeys hget (if replace then text else old ++ text)
    rw [hget] at hfits hprevious hseparator
    have hfits' : d.closed + (joinItems (Dict.set d.items itemId
      (if replace then text else old ++ text))).length ≤ MAX_ASSISTANT_TEXT_CHARS := hfits
    have hnone : s.separatorLength itemId = 0 := hseparator.trans (if_neg (by simp))
    cases replace with
    | true =>
      have hold : s.previousLength itemId true = old.length := hprevious
      rw [if_pos rfl] at hset hfits'
      omega
    | false =>
      have hold : s.previousLength itemId false = 0 := hprevious
      rw [if_neg Bool.false_ne_true] at hset hfits'
      rw [List.length_append] at hset
      omega
  | none =>
    rw [hget] at hfits hprevious hseparator
    by_cases hempty : text = []
    · rw [hempty]
      exact Nat.zero_le _
    · have hset := length_joinItems_new hget text
      have hfits' : d.closed + (joinItems (Dict.set d.items itemId text)).length ≤
          MAX_ASSISTANT_TEXT_CHARS := by
        dsimp only at hfits
        rw [if_neg hempty] at hfits
        exact hfits
      have hold : s.previousLength itemId replace = 0 := by
        rw [hprevious]
        cases replace <;> rfl
      have hnew : s.separatorLength itemId = if d.items ≠ [] then 2 else 0 := by
        rw [hseparator]
        simp only [and_true]
      omega

theorem Tracks.recordText {d : Document} (h : s.Tracks d)
    (hfits : (d.record itemId text replace).total ≤ MAX_ASSISTANT_TEXT_CHARS) :
    (s.recordText itemId text replace).Tracks (d.record itemId text replace) := by
  have hroom := h.remaining hfits
  have hr := recordText_recorded s itemId text replace
  have hclosed : (d.record itemId text replace).closed = d.closed := by
    unfold Document.record
    cases Dict.get? d.items itemId with
    | some old => rfl
    | none =>
      dsimp only
      split <;> rfl
  refine ⟨?_, ?_, hclosed ▸ h.counted.recordText itemId text replace⟩
  · rw [hr.truncated, h.whole, decide_eq_false (Nat.not_lt.mpr hroom)]
    rfl
  · have htake : text.take (s.remaining itemId replace) = text := List.take_of_length_le hroom
    have hkeys := h.counted.keys
    rw [h.items] at hkeys
    unfold Document.record
    by_cases hretains : s.Retains itemId text replace
    · rw [(hr.kept hretains).1, htake, h.items]
      cases hget : Dict.get? d.items itemId with
      | some old => cases replace <;> rfl
      | none =>
        have hne : text ≠ [] := by
          rcases hretains with hne | ⟨_, hsome⟩
          · rwa [htake] at hne
          · rw [h.items] at hsome
            exact absurd hget hsome
        dsimp only
        rw [if_neg hne]
        cases replace <;> rfl
    · rw [(hr.skipped hretains).1, h.items]
      rw [not_retains_iff, htake, ← Option.map_eq_none_iff (f := List.flatten), ← get?_items,
        h.items] at hretains
      obtain ⟨rfl, hwhich⟩ := hretains
      cases hget : Dict.get? d.items itemId with
      | some old =>
        rcases hwhich with rfl | hnone
        · show d.items = Dict.set d.items itemId (old ++ [])
          rw [List.append_nil, Dict.set_same hkeys hget]
        · rw [hget] at hnone
          cases hnone
      | none => rfl

/-! ## What is emitted -/

/-- What `_text_event` emits, and what it leaves. -/
structure Emitted (s : CodexTurnEvents) (force : Bool) (out : List Event) (s' : CodexTurnEvents) :
    Prop where
  text : s'.text = s.text
  length : s'.textLength = s.textLength
  truncated : s'.textTruncated = s.textTruncated
  tokens : (out = [] ∧ s'.lastText = s.lastText) ∨ (out = [.token s.shown] ∧ s'.lastText = s.shown)
  clean : s'.textDirty = false → s.textDirty = false ∨ s'.lastText = s.shown
  forced : force = true → s'.textDirty = false

theorem textEvent_emitted (s : CodexTurnEvents) (force : Bool) (now : ℚ) :
    Emitted s force (s.textEvent force now).1 (s.textEvent force now).2 := by
  unfold textEvent
  split
  next hclean => exact ⟨rfl, rfl, rfl, .inl ⟨rfl, rfl⟩, fun _ => .inl hclean, fun _ => hclean⟩
  next hdirty =>
    split
    next hthrottled =>
      refine ⟨rfl, rfl, rfl, .inl ⟨rfl, rfl⟩, fun h => absurd h hdirty, fun h => ?_⟩
      rw [hthrottled.1] at h
      cases h
    next =>
      dsimp only
      split
      next hsame =>
        exact ⟨rfl, rfl, rfl, .inl ⟨rfl, rfl⟩, fun _ => .inr hsame.symm, fun _ => rfl⟩
      next => exact ⟨rfl, rfl, rfl, .inr ⟨rfl, rfl⟩, fun _ => .inr rfl, fun _ => rfl⟩

theorem Counted.of_text {s' : CodexTurnEvents} {closed : Nat} (h : s.Counted closed)
    (htext : s'.text = s.text) (hlength : s'.textLength = s.textLength) : s'.Counted closed := by
  refine ⟨?_, ?_, ?_⟩
  · unfold items
    rw [htext]
    exact h.keys
  · unfold joined
    rw [htext, hlength]
    exact h.length
  · rw [hlength]
    exact h.bound

theorem Tracks.of_text {s' : CodexTurnEvents} {d : Document} (h : s.Tracks d)
    (htext : s'.text = s.text) (hlength : s'.textLength = s.textLength)
    (htruncated : s'.textTruncated = s.textTruncated) : s'.Tracks d := by
  refine ⟨htruncated.trans h.whole, ?_, h.counted.of_text htext hlength⟩
  unfold CodexTurnEvents.items
  rw [htext]
  exact h.items

/-- The state after the text of a frame is recorded. -/
def received (s : CodexTurnEvents) : Frame → CodexTurnEvents
  | .agentMessageDelta itemId delta => s.recordText itemId delta false
  | .agentMessageCompleted itemId text => s.recordText itemId text true
  | _ => s

end CodexTurnEvents

open CodexTurnEvents

/-- The content of the last token of the segment; empty when it has none. -/
def lastToken (events : List Event) : Text :=
  events.foldl
    (fun last event =>
      match event with
      | .token content => content
      | .contextCompacted => []
      | .error _ => last) []

/-- What is not yet shown is marked as dirty; of a fresh segment nothing need be shown. -/
structure Synced (last : Text) (s : CodexTurnEvents) : Prop where
  last : last = s.lastText
  clean : s.textDirty = false → s.lastText = s.shown ∨ (s.items = [] ∧ s.lastText = [])

theorem lastToken_concat (events : List Event) (event : Event) :
    lastToken (events ++ [event]) =
      match event with
      | .token content => content
      | .contextCompacted => []
      | .error _ => lastToken events := by
  unfold lastToken
  rw [List.foldl_append]
  cases event <;> rfl

variable {s s' : CodexTurnEvents} {events out : List Event}

theorem Synced.recordText {last : Text} (h : Synced last s) (itemId text : Text) (replace : Bool) :
    Synced last (s.recordText itemId text replace) := by
  have hr := recordText_recorded s itemId text replace
  refine ⟨h.last.trans hr.lastText.symm, fun hclean => ?_⟩
  have hsame := hr.clean hclean
  rw [hsame] at hclean
  rw [hsame]
  exact h.clean hclean

theorem Synced.received {last : Text} (h : Synced last s) (frame : Frame) :
    Synced last (s.received frame) := by
  cases frame with
  | agentMessageDelta itemId delta => exact h.recordText itemId delta false
  | agentMessageCompleted itemId text => exact h.recordText itemId text true
  | contextCompactionStarted => exact h
  | contextCompactionCompleted => exact h
  | turnCompleted status failure => exact h

theorem Synced.emitted {force : Bool} (h : Synced (lastToken events) s)
    (he : Emitted s force out s') : Synced (lastToken (events ++ out)) s' := by
  have hitems : s'.items = s.items := by
    unfold CodexTurnEvents.items
    rw [he.text]
  have hshown : s'.shown = s.shown := by
    unfold shown joined
    rw [he.text, he.truncated]
  rcases he.tokens with ⟨rfl, hlast⟩ | ⟨rfl, hlast⟩
  · rw [List.append_nil]
    refine ⟨h.last.trans hlast.symm, fun hclean => ?_⟩
    rw [hlast, hshown, hitems]
    rcases he.clean hclean with hbefore | hsame
    · exact h.clean hbefore
    · exact .inl (hlast.symm.trans hsame)
  · refine ⟨?_, fun _ => .inl (hlast.trans hshown.symm)⟩
    rw [lastToken_concat]
    exact hlast.symm

end BackgroundAgents.Harness.Codex

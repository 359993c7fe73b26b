import Mathlib.Data.List.Induction
import Mathlib.Tactic.IntervalCases
import BackgroundAgents.Harness.CodexTextLaws

/-!
# The tokens of a Codex turn

After a completed message, a compaction and the end of the turn the last token of the
segment is its text. While everything said fits the limit that is the document; later
it is what was retained, with the notice.
-/

namespace BackgroundAgents.Harness.Codex

open CodexTurnEvents

/-- The frames that emit at once. -/
def Frame.flushes : Frame → Bool
  | .agentMessageDelta _ _ => false
  | .agentMessageCompleted _ _ => true
  | .contextCompactionStarted => false
  | .contextCompactionCompleted => true
  | .turnCompleted _ _ => true

/-- Without the mark of a compaction. -/
def withoutBoundary (out : List Event) : List Event := out.filter fun e => e ≠ .contextCompacted

/-- The last token of the segment once a frame is handled; of the segment that it closes. -/
def tokenAfter (frames : List (Frame × ℚ)) (frame : Frame) (now : ℚ) : Text :=
  lastToken ((run frames).1 ++ withoutBoundary ((run frames).2.accept frame now).1)

theorem run_concat (frames : List (Frame × ℚ)) (frame : Frame) (now : ℚ) :
    run (frames ++ [(frame, now)]) =
      ((run frames).1 ++ ((run frames).2.accept frame now).1,
        ((run frames).2.accept frame now).2) := by
  unfold run
  rw [List.foldl_append]
  rfl

theorem run_concat_snd (frames : List (Frame × ℚ)) (frame : Frame) (now : ℚ) :
    (run (frames ++ [(frame, now)])).2 = ((run frames).2.accept frame now).2 := by
  rw [run_concat]

variable {s s' : CodexTurnEvents} {events out : List Event} {force : Bool}

/-! ## One emission -/

theorem CodexTurnEvents.Emitted.content (h : Emitted s force out s') {content : Text}
    (hmem : .token content ∈ out) : content = s.shown := by
  rcases h.tokens with ⟨rfl, _⟩ | ⟨rfl, _⟩
  · cases hmem
  · cases List.mem_singleton.mp hmem
    rfl

theorem CodexTurnEvents.Emitted.withoutBoundary (h : Emitted s force out s') :
    withoutBoundary out = out := by
  rcases h.tokens with ⟨rfl, _⟩ | ⟨rfl, _⟩ <;> rfl

/-- The last token shows the text; a fresh segment may have none. -/
def Shows (s : CodexTurnEvents) (last : Text) : Prop := last = s.shown ∨ (s.items = [] ∧ last = [])

theorem CodexTurnEvents.Emitted.shows (h : Emitted s true out s')
    (hsynced : Synced (lastToken (events ++ out)) s') : Shows s (lastToken (events ++ out)) := by
  have hshown : s'.shown = s.shown := by
    unfold CodexTurnEvents.shown joined
    rw [h.text, h.truncated]
  have hitems : s'.items = s.items := by
    unfold CodexTurnEvents.items
    rw [h.text]
  have hclean := hsynced.clean (h.forced rfl)
  rw [hshown, hitems, ← hsynced.last] at hclean
  exact hclean

/-! ## One frame -/

/-- What a frame does, given the state that its text is recorded in. -/
structure Steps (recorded : CodexTurnEvents) (events : List Event) (frame : Frame)
    (r : List Event × CodexTurnEvents) : Prop where
  synced : Synced (lastToken (events ++ r.1)) r.2
  tokens : ∀ content, .token content ∈ r.1 → content = recorded.shown
  flushed : frame.flushes = true → Shows recorded (lastToken (events ++ withoutBoundary r.1))
  length : r.2.textLength = recorded.textLength
  truncated : r.2.textTruncated = recorded.textTruncated
  text : r.2.text = if frame = .contextCompactionCompleted then [] else recorded.text

/-- A frame that only emits. -/
theorem CodexTurnEvents.Emitted.steps (he : Emitted s force out s')
    (h : Synced (lastToken events) s) (frame : Frame) (hforce : frame.flushes = true → force = true)
    (hframe : frame ≠ .contextCompactionCompleted) : Steps s events frame (out, s') where
  synced := h.emitted he
  tokens := fun _ => he.content
  flushed := by
    intro hflush
    rw [hforce hflush] at he
    rw [he.withoutBoundary]
    exact he.shows (h.emitted he)
  length := he.length
  truncated := he.truncated
  text := he.text.trans (if_neg hframe).symm

/-- Reporting a failure leaves the text alone. -/
theorem Steps.failed {status : Text} {failure : Option Text}
    (h : Steps s events (.turnCompleted status failure) (out, s')) (message : Text) :
    Steps s events (.turnCompleted status failure)
      (out ++ (s'.failed message).1, (s'.failed message).2) := by
  have hsplit : (s'.failed message = ([], s')) ∨
      (s'.failed message = ([.error message], { s' with error := some message })) := by
    unfold CodexTurnEvents.failed
    split
    · exact .inl rfl
    · exact .inr rfl
  rcases hsplit with heq | heq
  · rw [heq, List.append_nil]
    exact h
  · rw [heq]
    have hlast : ∀ front : List Event,
        lastToken (events ++ (front ++ [.error message])) = lastToken (events ++ front) := by
      intro front
      rw [← List.append_assoc, lastToken_concat]
    exact
      { h with
        synced := by
          rw [hlast]
          exact ⟨h.synced.last, h.synced.clean⟩
        tokens := by
          intro content hmem
          rcases List.mem_append.mp hmem with hmem | hmem
          · exact h.tokens content hmem
          · cases List.mem_singleton.mp hmem
        flushed := by
          intro hflush
          unfold withoutBoundary
          rw [List.filter_append]
          show Shows s (lastToken (events ++ (withoutBoundary out ++ [.error message])))
          rw [hlast]
          exact h.flushed hflush }

theorem accept_steps (h : Synced (lastToken events) s) (frame : Frame) (now : ℚ) :
    Steps (s.received frame) events frame (s.accept frame now) := by
  have hreceived := h.received frame
  cases frame with
  | agentMessageDelta itemId delta =>
    exact (textEvent_emitted _ false now).steps hreceived _ Bool.noConfusion Frame.noConfusion
  | agentMessageCompleted itemId text =>
    exact (textEvent_emitted _ true now).steps hreceived _ (fun _ => rfl) Frame.noConfusion
  | contextCompactionStarted =>
    exact
      { synced := by
          show Synced (lastToken (events ++ [])) s
          rw [List.append_nil]
          exact h
        tokens := fun content hmem => absurd hmem List.not_mem_nil
        flushed := Bool.noConfusion
        length := rfl
        truncated := rfl
        text := rfl }
  | contextCompactionCompleted =>
    have he := textEvent_emitted s true now
    exact
      { he with
        synced := by
          show Synced (lastToken (events ++ ((s.textEvent true now).1 ++ [.contextCompacted])))
            { (s.textEvent true now).2 with text := [], lastText := [] }
          rw [← List.append_assoc, lastToken_concat]
          exact ⟨rfl, fun _ => .inr ⟨rfl, rfl⟩⟩
        tokens := by
          intro content hmem
          rcases List.mem_append.mp hmem with hmem | hmem
          · exact he.content hmem
          · cases List.mem_singleton.mp hmem
        flushed := by
          intro _
          have hout : withoutBoundary ((s.textEvent true now).1 ++ [.contextCompacted]) =
              (s.textEvent true now).1 := by
            unfold withoutBoundary
            rw [List.filter_append]
            exact (congrArg (· ++ []) he.withoutBoundary).trans (List.append_nil _)
          show Shows s (lastToken (events ++ withoutBoundary
            ((s.textEvent true now).1 ++ [.contextCompacted])))
          rw [hout]
          exact he.shows (h.emitted he)
        text := rfl }
  | turnCompleted status failure =>
    have hstatus : Synced (lastToken events) { s with status := some status } := ⟨h.last, h.clean⟩
    have hsteps : Steps s events (.turnCompleted status failure)
        ({ s with status := some status }.textEvent true now) := by
      have he := (textEvent_emitted { s with status := some status } true now).steps hstatus
        (.turnCompleted status failure) (fun _ => rfl) Frame.noConfusion
      exact ⟨he.synced, he.tokens, he.flushed, he.length, he.truncated, he.text⟩
    cases failure with
    | none => exact hsteps
    | some message => exact hsteps.failed message

/-! ## Runs -/

theorem length_shown {closed : Nat} (h : s.Counted closed) :
    s.shown.length ≤ MAX_ASSISTANT_TEXT_CHARS + TEXT_TRUNCATION_NOTICE.length := by
  have hlength := h.length
  have hbound := h.bound
  unfold shown
  split
  next =>
    rw [List.length_append]
    omega
  next => omega

theorem CodexTurnEvents.Counted.received {closed : Nat} (h : s.Counted closed) (frame : Frame) :
    (s.received frame).Counted closed := by
  cases frame with
  | agentMessageDelta itemId delta => exact h.recordText itemId delta false
  | agentMessageCompleted itemId text => exact h.recordText itemId text true
  | contextCompactionStarted => exact h
  | contextCompactionCompleted => exact h
  | turnCompleted status failure => exact h

theorem CodexTurnEvents.Tracks.received {d : Document} (h : s.Tracks d) {frame : Frame}
    (hfits : (d.receive frame).total ≤ MAX_ASSISTANT_TEXT_CHARS) :
    (s.received frame).Tracks (d.receive frame) := by
  cases frame with
  | agentMessageDelta itemId delta => exact h.recordText hfits
  | agentMessageCompleted itemId text => exact h.recordText hfits
  | contextCompactionStarted => exact h
  | contextCompactionCompleted => exact h
  | turnCompleted status failure => exact h

/-- A compaction closes the segment with the characters that it has. -/
theorem CodexTurnEvents.Counted.compacted {closed : Nat} (h : s.Counted closed) (htext : s'.text = [])
    (hlength : s'.textLength = s.textLength) : s'.Counted (closed + s.joined.length) := by
  have hitems : s'.items = [] := by
    unfold items
    rw [htext]
    rfl
  refine ⟨?_, ?_, ?_⟩
  · rw [hitems]
    exact List.nodup_nil
  · rw [joined_eq s', hitems, hlength, h.length]
    exact (Int.add_zero _).symm
  · rw [hlength]
    exact h.bound

theorem Steps.counted {frame : Frame} {r : List Event × CodexTurnEvents}
    (h : Steps s events frame r) {closed : Nat} (hcounted : s.Counted closed) :
    ∃ closed', r.2.Counted closed' := by
  have htext := h.text
  by_cases hframe : frame = .contextCompactionCompleted
  · rw [if_pos hframe] at htext
    exact ⟨_, hcounted.compacted htext h.length⟩
  · rw [if_neg hframe] at htext
    exact ⟨closed, hcounted.of_text htext h.length⟩

structure Sound (r : List Event × CodexTurnEvents) : Prop where
  synced : Synced (lastToken r.1) r.2
  counted : ∃ closed, r.2.Counted closed
  bounded : ∀ content, .token content ∈ r.1 →
    content.length ≤ MAX_ASSISTANT_TEXT_CHARS + TEXT_TRUNCATION_NOTICE.length

theorem run_sound (frames : List (Frame × ℚ)) : Sound (run frames) := by
  induction frames using List.reverseRecOn with
  | nil =>
    refine ⟨⟨rfl, fun _ => .inl rfl⟩, ⟨0, List.nodup_nil, rfl, ?_⟩, fun _ h =>
      absurd h List.not_mem_nil⟩
    exact Int.natCast_nonneg _
  | append_singleton frames f ih =>
    obtain ⟨frame, now⟩ := f
    obtain ⟨closed, hcounted⟩ := ih.counted
    have hreceived := hcounted.received frame
    have hsteps := accept_steps ih.synced frame now
    rw [run_concat]
    refine ⟨hsteps.synced, hsteps.counted hreceived, fun content hmem => ?_⟩
    rcases List.mem_append.mp hmem with hmem | hmem
    · exact ih.bounded content hmem
    · rw [hsteps.tokens content hmem]
      exact length_shown hreceived

theorem Document.accept_total (d : Document) (frame : Frame) :
    (d.accept frame).total = (d.receive frame).total := by
  cases frame with
  | contextCompactionCompleted => exact Nat.add_zero _
  | _ => rfl

theorem Fits.initial {frames : List Frame} {frame : Frame} (h : Fits (frames ++ [frame])) :
    Fits frames ∧ ((document frames).receive frame).total ≤ MAX_ASSISTANT_TEXT_CHARS := by
  refine ⟨fun start hstart => h start (hstart.trans (List.prefix_append _ _)), ?_⟩
  have hall := h (frames ++ [frame]) List.prefix_rfl
  rwa [document_concat, Document.accept_total] at hall

/-- While everything fits, the events have the whole document. -/
theorem run_tracks (frames : List (Frame × ℚ)) (h : Fits (frames.map Prod.fst)) :
    (run frames).2.Tracks (document (frames.map Prod.fst)) := by
  induction frames using List.reverseRecOn with
  | nil => exact ⟨rfl, rfl, List.nodup_nil, rfl, Int.natCast_nonneg _⟩
  | append_singleton frames f ih =>
    obtain ⟨frame, now⟩ := f
    rw [List.map_append, List.map_singleton] at h ⊢
    obtain ⟨hbefore, hfits⟩ := h.initial
    have htracks := (ih hbefore).received hfits
    have hsteps := accept_steps (run_sound frames).synced frame now
    have htext := hsteps.text
    rw [run_concat, document_concat]
    by_cases hframe : frame = .contextCompactionCompleted
    · rw [if_pos hframe] at htext
      subst hframe
      have hcounted := htracks.counted.compacted htext hsteps.length
      refine ⟨hsteps.truncated.trans htracks.whole, ?_, ?_⟩
      · unfold items
        rw [htext]
        rfl
      · rw [joined_eq, htracks.items] at hcounted
        exact hcounted
    · rw [if_neg hframe] at htext
      have hsame : (document (frames.map Prod.fst)).accept frame =
          (document (frames.map Prod.fst)).receive frame := by
        cases frame with
        | contextCompactionCompleted => exact absurd rfl hframe
        | _ => rfl
      rw [hsame]
      exact htracks.of_text htext hsteps.length hsteps.truncated

/-! ## The text of a turn -/

/-- Every token is within the limit; after a frame that flushes the last token of the
segment is its text; and while everything said fits, that is the document, of which every
token shows all there is. -/
theorem codex_text (frames : List (Frame × ℚ)) :
    (∀ content, .token content ∈ (run frames).1 →
      content.length ≤ MAX_ASSISTANT_TEXT_CHARS + TEXT_TRUNCATION_NOTICE.length) ∧
    ∀ frame now,
      (frame.flushes = true →
        Shows ((run frames).2.received frame) (tokenAfter frames frame now)) ∧
      (Fits (frames.map Prod.fst ++ [frame]) →
        (∀ content, .token content ∈ ((run frames).2.accept frame now).1 →
          content = ((document (frames.map Prod.fst)).receive frame).text) ∧
        (frame.flushes = true →
          tokenAfter frames frame now =
            ((document (frames.map Prod.fst)).receive frame).text)) := by
  have hsound := run_sound frames
  refine ⟨hsound.bounded, fun frame now => ?_⟩
  have hsteps := accept_steps hsound.synced frame now
  refine ⟨hsteps.flushed, fun hfits => ?_⟩
  obtain ⟨hbefore, htotal⟩ := hfits.initial
  have htracks := (run_tracks frames hbefore).received htotal
  refine ⟨fun content hmem => (hsteps.tokens content hmem).trans htracks.shown, fun hflush => ?_⟩
  rcases hsteps.flushed hflush with hshown | ⟨hitems, hlast⟩
  · exact hshown.trans htracks.shown
  · rw [htracks.items] at hitems
    unfold tokenAfter
    rw [hlast, Document.text, hitems]
    rfl

/-! ### Two items, one of them completed -/

def greeting : List (Frame × ℚ) :=
  [(.agentMessageDelta (asText "a") (asText "he"), 0),
    (.agentMessageDelta (asText "a") (asText "llo"), 1 / 20),
    (.agentMessageDelta (asText "b") (asText "bye"), 3 / 50)]

theorem greeting_fits :
    Fits (greeting.map Prod.fst ++ [.agentMessageCompleted (asText "a") (asText "hey")]) := by
  intro start hstart
  have htake := List.prefix_iff_eq_take.mp hstart
  rw [htake]
  have hle := hstart.length_le
  generalize start.length = n at hle ⊢
  have hn : n ≤ 4 := hle
  interval_cases n <;> decide +kernel

theorem codex_text_greeting :
    tokenAfter greeting (.agentMessageCompleted (asText "a") (asText "hey")) (1 / 10) =
      asText "hey\n\nbye" := by
  have h := ((codex_text greeting).2 (.agentMessageCompleted (asText "a") (asText "hey"))
    (1 / 10)).2 greeting_fits
  exact (h.2 rfl).trans (by decide +kernel)

/-! ### What the text is not -/

/-- The notice stays, once the limit was exceeded. -/
theorem truncated_received (h : s.textTruncated = true) (frame : Frame) :
    (s.received frame).textTruncated = true := by
  cases frame with
  | agentMessageDelta itemId delta =>
    exact (recordText_recorded s itemId delta false).truncated.trans (by rw [h, Bool.true_or])
  | agentMessageCompleted itemId text =>
    exact (recordText_recorded s itemId text true).truncated.trans (by rw [h, Bool.true_or])
  | contextCompactionStarted => exact h
  | contextCompactionCompleted => exact h
  | turnCompleted status failure => exact h

/-- One character more than is shown. -/
def overlong : Text := List.replicate (MAX_ASSISTANT_TEXT_CHARS + 1) 0x61

theorem overlong_recorded :
    (CodexTurnEvents.recordText {} (asText "a") overlong false).textTruncated = true ∧
      Dict.get? (CodexTurnEvents.recordText {} (asText "a") overlong false).items (asText "a") ≠
        none := by
  have hr := recordText_recorded {} (asText "a") overlong false
  have hremaining : CodexTurnEvents.remaining {} (asText "a") false = MAX_ASSISTANT_TEXT_CHARS := by
    decide +kernel
  have hlength : overlong.length = MAX_ASSISTANT_TEXT_CHARS + 1 := List.length_replicate
  refine ⟨?_, ?_⟩
  · rw [hr.truncated, hremaining, hlength, decide_eq_true (Nat.lt_succ_self _), Bool.or_true]
  · have hretains : CodexTurnEvents.Retains {} (asText "a") overlong false := by
      refine .inl (List.ne_nil_of_length_pos ?_)
      rw [hremaining, List.length_take, hlength, Nat.min_eq_left (Nat.le_succ _)]
      decide
    rw [(hr.kept hretains).1, Dict.get?_set, if_pos rfl]
    exact Option.some_ne_none _

/-- An item that begins with an empty text has its place after the items before its first
character; a delta after the completed text is appended to it; and the notice of an overflow
remains when the completed text is short. -/
theorem codex_text_otherwise :
    (tokenAfter
        [(.agentMessageDelta (asText "a") [], 0), (.agentMessageDelta (asText "b") (asText "hi"), 0)]
        (.agentMessageCompleted (asText "a") (asText "yo")) 0 = asText "hi\n\nyo") ∧
    (tokenAfter
        [(.agentMessageCompleted (asText "a") (asText "hi"), 0),
          (.agentMessageDelta (asText "a") (asText "!"), 0)]
        (.turnCompleted (asText "completed") none) 0 = asText "hi!") ∧
    ∃ kept, tokenAfter [(.agentMessageDelta (asText "a") overlong, 0)]
      (.agentMessageCompleted (asText "a") (asText "hi")) 1 = kept ++ TEXT_TRUNCATION_NOTICE := by
  refine ⟨by decide +kernel, by decide +kernel, ?_⟩
  obtain ⟨htruncated, hget⟩ := overlong_recorded
  have hfirst := accept_steps (run_sound []).synced (.agentMessageDelta (asText "a") overlong) 0
  rw [← List.nil_append [(Frame.agentMessageDelta (asText "a") overlong, (0 : ℚ))]]
  generalize hbefore : run ([] ++ [(Frame.agentMessageDelta (asText "a") overlong, (0 : ℚ))]) =
    before
  have hstate : before.2 = ((run []).2.accept (.agentMessageDelta (asText "a") overlong) 0).2 := by
    rw [← hbefore]
    exact run_concat_snd [] _ 0
  have hsame : before.2.textTruncated = true ∧ Dict.get? before.2.items (asText "a") ≠ none := by
    rw [hstate]
    refine ⟨hfirst.truncated.trans htruncated, ?_⟩
    unfold items
    rw [hfirst.text]
    exact hget
  have hsound := run_sound ([] ++ [(Frame.agentMessageDelta (asText "a") overlong, (0 : ℚ))])
  rw [hbefore] at hsound
  have hsteps := accept_steps hsound.synced (.agentMessageCompleted (asText "a") (asText "hi")) 1
  unfold tokenAfter
  rw [hbefore]
  rcases hsteps.flushed rfl with hshown | ⟨hempty, _⟩
  · rw [hshown]
    unfold shown
    rw [truncated_received hsame.1, if_pos rfl]
    exact ⟨_, rfl⟩
  · have hr := recordText_recorded before.2 (asText "a") (asText "hi") true
    have hitems := (hr.kept (.inr ⟨rfl, hsame.2⟩)).1
    have hnil : (before.2.recordText (asText "a") (asText "hi") true).items = [] := hempty
    rw [hnil] at hitems
    have hnone : Dict.get? ([] : Items) (asText "a") = none := rfl
    rw [hitems, Dict.get?_set, if_pos rfl] at hnone
    cases hnone

end BackgroundAgents.Harness.Codex

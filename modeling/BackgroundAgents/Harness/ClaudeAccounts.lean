import BackgroundAgents.Harness.ClaudeTurns

/-!
# The accounts of a Claude session

Between prompts the translator's baseline is the last known total of the connection,
unless the next prompt connects again (`Sound`). So whatever ends a prompt, the next one
starts from what its own connection was charged up to.
-/

namespace BackgroundAgents.Harness.Claude

open BackgroundAgents.Transition

variable {κ ρ ε : Type} {es : List (Entry κ ε)} {n : ℕ}

/-! ## The transcript grows -/

theorem charged_nobody (es : List (Entry κ ε)) : charged (fun _ => false) es = 0 := by
  induction es with
  | nil => rfl
  | cons e es ih =>
    cases e with
    | delivered k message translation => rw [charged_other rfl, ih]
    | _ => exact ih

/-- A prompt that nothing was delivered to. -/
def Untouched (n : ℕ) (es : List (Entry κ ε)) : Prop :=
  ∀ k message translation, Entry.delivered k message translation ∈ es → k ≠ n

theorem Untouched.chargedTo (h : Untouched n es) : chargedTo n es = 0 := by
  rw [← charged_nobody es]
  exact charged_congr fun k message translation hmem => decide_eq_false (h k message translation hmem)

theorem Untouched.injectedTurn (h : Untouched n es) : injectedTurn n es = false := by
  induction es with
  | nil => rfl
  | cons e es ih =>
    have ih := ih fun k message translation hmem =>
      h k message translation (List.mem_cons_of_mem _ hmem)
    cases e with
    | delivered k message translation =>
      have hk := h k message translation List.mem_cons_self
      unfold Claude.injectedTurn
      rw [if_neg hk]
      exact ih
    | _ => exact ih

variable {outcome : TurnOutcome}

theorem Reported.cons (h : Reported es n outcome) {e : Entry κ ε}
    (he : chargedTo n (e :: es) = chargedTo n es) : Reported (e :: es) n outcome where
  cost := h.cost.trans (congrArg some he.symm)
  nonneg := h.nonneg
  own := by
    obtain ⟨later, earlier, message, translation, rfl, hown⟩ := h.own
    exact ⟨e :: later, earlier, message, translation, rfl, hown⟩

theorem Spend.connected (h : Spend es) : Spend (.connected :: es) where
  total := h.total
  once := h.once
  reported := fun n outcome hmem => (h.reported n outcome hmem).cons rfl
  quiet := by
    intro later earlier n message translation heq
    rcases List.cons_eq_append_iff.mp heq with ⟨_, hhead⟩ | ⟨later, _, rfl⟩
    · cases hhead
    · exact h.quiet later earlier n message translation rfl

variable {message : Message κ}

theorem Spend.delivered (h : Spend es) (hn : n ∉ (returned es).map Prod.fst)
    {translation : Translation ε}
    (hquiet : Injected n es message → translation.events = [] ∧ translation.outcome = none) :
    Spend (.delivered n message translation :: es) where
  total := h.total.trans (charged_other (decide_eq_false hn) message).symm
  once := h.once
  reported := by
    intro k outcome hmem
    have hk : n ≠ k := by
      intro heq
      exact hn (heq ▸ List.mem_map_of_mem hmem)
    exact (h.reported k outcome hmem).cons (charged_other (decide_eq_false hk) message)
  quiet := by
    intro later earlier k message' translation' heq
    rcases List.cons_eq_append_iff.mp heq with ⟨_, hhead⟩ | ⟨later, _, rfl⟩
    · cases hhead
      exact hquiet
    · exact h.quiet later earlier k message' translation' rfl

theorem Spend.returned (h : Spend es) (hn : n ∉ (returned es).map Prod.fst)
    (hreported : Reported es n outcome) : Spend (.returned n outcome :: es) where
  total := by
    have hcost := hreported.cost
    rw [Claude.returned, List.map_cons, List.map_cons, List.sum_cons, h.total, hcost]
    exact (charged_insert hn es).symm
  once := List.nodup_cons.mpr ⟨hn, h.once⟩
  reported := by
    intro k outcome' hmem
    rcases List.mem_cons.mp hmem with heq | hmem
    · cases heq
      exact hreported.cons rfl
    · exact (h.reported k outcome' hmem).cons rfl
  quiet := by
    intro later earlier k message translation heq
    rcases List.cons_eq_append_iff.mp heq with ⟨_, hhead⟩ | ⟨later, _, rfl⟩
    · cases hhead
    · exact h.quiet later earlier k message translation rfl

/-! ## The invariant -/

/-- The turn in flight follows the transcript and has not returned. -/
structure Turn.Sound (turn : Turn ρ) (es : List (Entry κ ε)) (prompts : ℕ) : Prop where
  tracks : Tracks turn.number es turn.state
  number : turn.number < prompts
  unreturned : turn.number ∉ (returned es).map Prod.fst

/-- What holds between steps. -/
structure Session.Sound (s : Session κ ρ ε) : Prop where
  spend : Spend s.transcript
  delivered : ∀ n message translation,
    Entry.delivered n message translation ∈ s.transcript → n < s.prompts
  returned : ∀ n ∈ (returned s.transcript).map Prod.fst, n < s.prompts
  turn : ∀ turn ∈ s.turn, turn.Sound s.transcript s.prompts
  /-- A client that the next prompt reuses goes on from the baseline. -/
  idle : s.turn = none → s.harness.client = true → s.harness.needsReconnect = false →
    s.harness.translator.costBaseline = baseline s.transcript

theorem Session.Sound.opened : (Session.opened : Session κ ρ ε).Sound where
  spend :=
    { total := rfl
      once := List.nodup_nil
      reported := by
        intro n outcome hmem
        cases hmem
      quiet := by
        intro later earlier n message translation heq
        exact absurd heq.symm (List.append_ne_nil_of_right_ne_nil _ (List.cons_ne_nil _ _)) }
  delivered := by
    intro n message translation hmem
    cases hmem
  returned := by
    intro n hmem
    cases hmem
  turn := by
    intro turn hturn
    cases hturn
  idle := by
    intro _ hclient
    cases hclient

variable {s : Session κ ρ ε}

variable {harness : ClaudeHarness}

/-- Only the client changes, and the next prompt connects again if there is none in flight. -/
theorem Session.Sound.withHarness (h : s.Sound) {turn : Option (Turn ρ)}
    (hturn : turn = none ∨ turn = s.turn)
    (hidle : turn = none → harness.client = true → harness.needsReconnect = false →
      harness.translator.costBaseline = baseline s.transcript) :
    ({ s with harness, turn } : Session κ ρ ε).Sound :=
  { h with
    turn := by
      intro t ht
      rcases hturn with rfl | rfl
      · cases ht
      · exact h.turn t ht
    idle := hidle }

/-! ## Steps -/

/-- How a prompt gets its client: one that fails leaves none that the next prompt would reuse. -/
theorem ensureClient_cases (harness : ClaudeHarness) (model : String) (effort : Option String)
    (connect : Connect) {harness' : ClaudeHarness} {ensured : Ensured}
    (h : harness.ensureClient model effort connect = (harness', ensured)) :
    (ensured = .reused ∧ harness' = harness ∧ harness.client = true ∧
        harness.needsReconnect = false) ∨
      (ensured = .connected ∧ harness'.translator.costBaseline = some 0) ∨
      (ensured = .failed ∧ (harness'.client = true → harness'.needsReconnect = true)) := by
  unfold ClaudeHarness.ensureClient at h
  split at h
  next hsame =>
    cases h
    exact .inl ⟨rfl, rfl, hsame.1, hsame.2.2.2⟩
  next =>
    dsimp only at h
    split at h
    next hspent =>
      cases h
      exact .inr (.inr ⟨rfl, fun _ => hspent.1⟩)
    next =>
      cases connect with
      | connected =>
        cases h
        exact .inr (.inl ⟨rfl, rfl⟩)
      | startError =>
        cases h
        exact .inr (.inr ⟨rfl, fun hclient => absurd hclient Bool.false_ne_true⟩)
      | _ =>
        cases h
        exact .inr (.inr ⟨rfl, fun _ => rfl⟩)

theorem Session.Sound.next (h : s.Sound) :
    Untouched s.prompts s.transcript ∧ s.prompts ∉ (Claude.returned s.transcript).map Prod.fst :=
  ⟨fun k message translation hmem => Nat.ne_of_lt (h.delivered k message translation hmem),
    fun hmem => Nat.lt_irrefl _ (h.returned _ hmem)⟩

/-- A turn that starts from the baseline. -/
theorem Tracks.started (h : Untouched n es) (messageId : String) {costBaseline : Option ℚ}
    (fresh : ρ) (hbaseline : costBaseline = baseline es) :
    Tracks n es (.started messageId costBaseline fresh) where
  costBaseline := hbaseline
  injectedCost := h.chargedTo.symm
  nonneg := le_rfl
  injected := h.injectedTurn.symm

/-- More prompts have started; the transcript and the turn are those of the new prompt. -/
theorem Session.Sound.starts (h : s.Sound) {turn : Option (Turn ρ)}
    {transcript : List (Entry κ ε)} (hspend : Spend transcript)
    (hdelivered : ∀ n message translation, Entry.delivered n message translation ∈ transcript →
      Entry.delivered n message translation ∈ s.transcript)
    (hreturned : Claude.returned transcript = Claude.returned s.transcript)
    (hturn : ∀ t ∈ turn, t.number = s.prompts ∧ Tracks t.number transcript t.state)
    (hidle : turn = none → harness.client = true → harness.needsReconnect = false →
      harness.translator.costBaseline = baseline transcript) :
    (⟨harness, turn, s.prompts + 1, transcript⟩ : Session κ ρ ε).Sound where
  spend := hspend
  delivered := fun n message translation hmem =>
    Nat.lt_succ_of_lt (h.delivered n message translation (hdelivered n message translation hmem))
  returned := by
    intro n hmem
    rw [hreturned] at hmem
    exact Nat.lt_succ_of_lt (h.returned n hmem)
  turn := by
    intro t ht
    obtain ⟨hnumber, htracks⟩ := hturn t ht
    refine ⟨htracks, ?_, ?_⟩
    · rw [hnumber]
      exact Nat.lt_succ_self _
    · rw [hnumber, hreturned]
      exact h.next.2
  idle := hidle

theorem Session.Sound.start (h : s.Sound) (hturn : s.turn = none) (contents : Contents κ ρ ε)
    (messageId model : String) (effort : Option String) (connect : Connect) :
    (s.start contents messageId model effort connect).Sound := by
  unfold Session.start
  cases hensure : s.harness.ensureClient model effort connect with
  | mk harness ensured =>
    rcases ensureClient_cases _ _ _ _ hensure with ⟨rfl, rfl, hclient, hkept⟩ | ⟨rfl, hzero⟩ |
      ⟨rfl, hfailed⟩
    · refine h.starts h.spend (fun _ _ _ hmem => hmem) rfl ?_ ?_
      · intro t ht
        cases ht
        exact ⟨rfl, .started h.next.1 messageId _ (h.idle hturn hclient hkept)⟩
      · intro hnone
        cases hnone
    · refine h.starts h.spend.connected ?_ rfl ?_ ?_
      · intro n message translation hmem
        cases hmem with
        | tail _ hmem => exact hmem
      · intro t ht
        cases ht
        refine ⟨rfl, .started ?_ messageId _ hzero⟩
        intro k message translation hmem
        cases hmem with
        | tail _ hmem => exact h.next.1 k message translation hmem
      · intro hnone
        cases hnone
    · refine h.starts h.spend (fun _ _ _ hmem => hmem) rfl ?_ ?_
      · intro t ht
        cases hturn.symm.trans ht
      · intro _ hclient hkept
        rw [hfailed hclient] at hkept
        cases hkept

/-- A message is on the transcript, and the turn goes on or is over. -/
theorem Session.Sound.delivers (h : s.Sound) {turn : Turn ρ} (hturn : s.turn = some turn)
    {translation : Translation ε}
    {turn' : Option (Turn ρ)}
    (hquiet : Injected turn.number s.transcript message →
      translation.events = [] ∧ translation.outcome = none)
    (hgoesOn : ∀ t ∈ turn', t.number = turn.number ∧
      Tracks t.number (.delivered turn.number message translation :: s.transcript) t.state)
    (hidle : turn' = none → harness.client = true → harness.needsReconnect = false →
      harness.translator.costBaseline =
        baseline (.delivered turn.number message translation :: s.transcript)) :
    (⟨harness, turn', s.prompts, .delivered turn.number message translation :: s.transcript⟩ :
      Session κ ρ ε).Sound := by
  have hsound := h.turn turn hturn
  exact
    { spend := h.spend.delivered hsound.unreturned hquiet
      delivered := by
        intro n message' translation' hmem
        rcases List.mem_cons.mp hmem with heq | hmem
        · cases heq
          exact hsound.number
        · exact h.delivered n message' translation' hmem
      returned := h.returned
      turn := by
        intro t ht
        obtain ⟨hnumber, htracks⟩ := hgoesOn t ht
        exact ⟨htracks, hnumber ▸ hsound.number, hnumber ▸ hsound.unreturned⟩
      idle := hidle }

/-- A prompt returns what it reports. -/
theorem Session.Sound.returns (h : s.Sound) (hturn : s.turn = none) (hn : n < s.prompts)
    (hfresh : n ∉ (Claude.returned s.transcript).map Prod.fst)
    (hreported : Reported s.transcript n outcome) :
    ({ s with transcript := .returned n outcome :: s.transcript } : Session κ ρ ε).Sound where
  spend := h.spend.returned hfresh hreported
  delivered := by
    intro k message translation hmem
    cases hmem with
    | tail _ hmem => exact h.delivered k message translation hmem
  returned := by
    intro k hmem
    rcases List.mem_cons.mp hmem with rfl | hmem
    · exact hn
    · exact h.returned k hmem
  turn := by
    intro t ht
    cases hturn.symm.trans ht
  idle := h.idle

theorem Session.Sound.deliver (h : s.Sound) {turn : Turn ρ} (hturn : s.turn = some turn)
    (contents : Contents κ ρ ε) (uuid : String) (emitted : Bool)
    (hgrows : ∀ result, message = .result result → Grows s.transcript result) :
    (s.deliver contents turn message uuid emitted).Sound := by
  have hsound := h.turn turn hturn
  have hdelivers := hsound.tracks.translate contents hgrows s.harness.translator
    s.harness.interrupted uuid
  unfold Session.deliver
  cases htranslate : s.harness.translator.translate contents turn.state message
    s.harness.interrupted uuid with
  | mk translation after =>
    rw [htranslate] at hdelivers
    dsimp only
    cases emitted with
    | false =>
      refine h.delivers hturn hdelivers.quiet ?_ ?_
      · intro t ht
        cases ht
      · intro _ _ hkept
        cases hkept
    | true =>
      rw [if_pos rfl]
      cases houtcome : translation.outcome with
      | none =>
        refine h.delivers hturn hdelivers.quiet ?_ ?_
        · intro t ht
          cases ht
          exact ⟨rfl, hdelivers.goesOn houtcome⟩
        · intro hnone
          cases hnone
      | some outcome =>
        obtain ⟨⟨result, rfl⟩, hown, ⟨cost, hcost, hnonneg, hcharged⟩, hbaseline⟩ :=
          hdelivers.ends outcome houtcome
        have hover : (⟨{ s.harness with translator := after.1 }, none, s.prompts,
            .delivered turn.number (.result result) translation :: s.transcript⟩ :
            Session κ ρ ε).Sound := by
          refine h.delivers hturn hdelivers.quiet ?_ fun _ _ _ => hbaseline
          intro t ht
          cases ht
        refine hover.returns rfl hsound.number hsound.unreturned ?_
        exact
          { cost := hcost.trans (congrArg some hcharged)
            nonneg := by
              intro reported hreported
              cases hcost.symm.trans hreported
              exact hnonneg
            own := ⟨[], s.transcript, result, translation, rfl, houtcome, hown⟩ }

variable {contents : Contents κ ρ ε} {t : Session κ ρ ε}

theorem step_sound (h : s.Sound) {a : Action κ} (hgrowing : Growing s a)
    (hstep : step contents s a = some t) : t.Sound := by
  unfold step at hstep
  cases a with
  | prompt messageId model effort connect =>
    dsimp only at hstep
    split at hstep
    next => cases hstep
    next hidle =>
      have hturn : s.turn = none := by
        cases hs : s.turn with
        | none => rfl
        | some turn => exact absurd (hs ▸ rfl) hidle
      cases model with
      | none =>
        cases hstep
        refine h.starts h.spend (fun _ _ _ hmem => hmem) rfl ?_ h.idle
        intro t ht
        cases hturn.symm.trans ht
      | some model =>
        cases hstep
        exact h.start hturn contents messageId model effort connect
  | message message uuid emitted =>
    cases hturn : s.turn with
    | none =>
      rw [hturn] at hstep
      cases hstep
    | some turn =>
      rw [hturn] at hstep
      cases hstep
      refine h.deliver hturn contents uuid emitted ?_
      intro result hresult
      cases hresult
      exact hgrowing
  | broken client =>
    dsimp only at hstep
    split at hstep
    next =>
      cases hstep
      refine h.withHarness (.inl rfl) ?_
      intro _ _ hkept
      cases hkept
    next => cases hstep
  | abort client =>
    dsimp only at hstep
    split at hstep
    next =>
      cases hstep
      refine h.withHarness (.inr rfl) ?_
      intro _ _ hkept
      cases hkept
    next =>
      cases hstep
      exact h
  | stopExecution stopped =>
    cases hstep
    refine h.withHarness (.inr rfl) ?_
    intro _ _ hkept
    cases hkept
  | disconnect =>
    dsimp only at hstep
    split at hstep
    next => cases hstep
    next =>
      cases hstep
      refine h.withHarness (.inr rfl) ?_
      intro _ hclient
      cases hclient
  | sessionId id =>
    cases hstep
    exact h.withHarness (.inr rfl) h.idle

/-- **What a session spends is charged once.** -/
theorem claude_spend (contents : Contents κ ρ ε)
    (h : (claudeSystem contents).Reachable Growing .opened s) : Spend s.transcript := by
  have hsound : s.Sound := h.inv Session.Sound .opened fun _ _ _ hs hok hstep =>
    step_sound hs hok hstep
  exact hsound.spend

instance (s : Session κ ρ ε) (a : Action κ) : Decidable (Growing s a) := by
  unfold Growing
  split <;> infer_instance

/-- Texts that are emitted as they are. -/
def plainContents : Contents String Unit String := ⟨(), fun progress text => (progress, [text])⟩

/-- A success with or without a running total. -/
def sampleResult (origin : Option MessageOrigin) (total : Option ℚ) : Message String :=
  .result ⟨"success", false, total, origin, .empty, none, [], "s"⟩

/-- An injected turn and a reset inside it, a result without total, one that cannot be told from
it, one that can, and a prompt on a new connection. -/
theorem claude_spend_sample : ∃ s,
    (claudeSystem plainContents).Reachable Growing .opened s ∧ Spend s.transcript ∧
      (returned s.transcript).map (fun r => (r.1, r.2.messageCostUsd)) =
        [(4, some 1), (3, some 2), (2, some 0), (1, some 0), (0, some 5)] := by
  have hrun : ((claudeSystem plainContents).run Growing .opened
      [.prompt "a" (some "opus") none .connected,
        .message (.user (some ⟨"task-notification"⟩) "x") "" true,
        .message (sampleResult none (some 3)) "" true,
        .message (.user (some ⟨"task-notification"⟩) "x") "" true,
        .message .conversationReset "" true, .message (sampleResult none (some 1)) "" true,
        .message (.other "hello") "" true, .message (sampleResult none (some 2)) "u" true,
        .prompt "b" (some "opus") none .connected, .message (sampleResult none none) "u" true,
        .prompt "c" (some "opus") none .connected, .message (sampleResult none (some 4)) "u" true,
        .prompt "d" (some "opus") none .connected, .message (sampleResult none (some 6)) "u" true,
        .abort true, .prompt "e" (some "opus") none .connected,
        .message (sampleResult (some ⟨"human"⟩) (some 1)) "u" true]).any (fun s =>
          decide ((returned s.transcript).map (fun r => (r.1, r.2.messageCostUsd)) =
            [(4, some 1), (3, some 2), (2, some 0), (1, some 0), (0, some 5)])) = true := by
    decide +kernel
  obtain ⟨s, hs, hreturned⟩ := (Option.any_eq_true _ _).mp hrun
  have hreach := System.run_reachable hs
  exact ⟨s, hreach, claude_spend plainContents hreach, of_decide_eq_true hreturned⟩

/-- The advances when only the results of prompts are left out. -/
def chargedButPrompts : List (Entry κ ε) → ℚ
  | [] => 0
  | .delivered _ (.result message) translation :: es =>
    (match message.totalCostUsd with
      | none => 0
      | some total =>
        if translation.outcome.isSome ∧ unknownTotal es then 0 else total - runningTotal es) +
      chargedButPrompts es
  | _ :: es => chargedButPrompts es

/-- After a result without total it is the injected result that nobody is charged for: the prompt
it belongs to reports the advance of its own result alone. -/
theorem injected_left_out : ∃ s,
    (claudeSystem plainContents).Reachable Growing .opened s ∧
      (returned s.transcript).map (fun r => (r.1, r.2.messageCostUsd)) =
        [(1, some 2), (0, some 0)] ∧ chargedButPrompts s.transcript = 3 := by
  have hrun : ((claudeSystem plainContents).run Growing .opened
      [.prompt "a" (some "opus") none .connected, .message (sampleResult none none) "u" true,
        .prompt "b" (some "opus") none .connected,
        .message (sampleResult (some ⟨"task-notification"⟩) (some 1)) "" true,
        .message (sampleResult none (some 3)) "u" true]).any (fun s =>
          decide ((returned s.transcript).map (fun r => (r.1, r.2.messageCostUsd)) =
              [(1, some 2), (0, some 0)] ∧ chargedButPrompts s.transcript = 3)) = true := by
    decide +kernel
  obtain ⟨s, hs, hfacts⟩ := (Option.any_eq_true _ _).mp hrun
  exact ⟨s, System.run_reachable hs, of_decide_eq_true hfacts⟩

end BackgroundAgents.Harness.Claude

import BackgroundAgents.Harness.ClaudeSpend

/-!
# One message of a Claude prompt

While a prompt is in flight its state follows the transcript (`Tracks`): the baseline is
the last known total, the cost of the injected turns is what was delivered so far, and
the turn is injected when the transcript says so. A message either keeps that, or is the
prompt's own result and reports what the transcript charges (`translate_delivers`).
-/

namespace BackgroundAgents.Harness.Claude

variable {κ ρ ε : Type} {es : List (Entry κ ε)} {n : ℕ} {state : ClaudeTurnState ρ}

/-- The advances of one prompt. -/
def chargedTo (n : ℕ) (es : List (Entry κ ε)) : ℚ := charged (fun k => decide (k = n)) es

theorem chargedTo_result (message : ResultMessage) (translation : Translation ε) :
    chargedTo n (.delivered n (.result message) translation :: es) =
      advance es message + chargedTo n es := by
  unfold chargedTo
  rw [charged, if_pos (decide_eq_true rfl)]

/-! ## Injected turns -/

theorem belongs_costBaseline (message : Message κ) :
    (belongsToInjectedTurn state message).2.costBaseline = state.costBaseline := by
  cases message <;> rfl

theorem belongs_injected (h : state.injected = injectedTurn n es) (message : Message κ)
    (translation : Translation ε) :
    (belongsToInjectedTurn state message).2.injected =
      injectedTurn n (.delivered n message translation :: es) := by
  cases message with
  | user origin content =>
    show (state.injected || (injectedOrigin origin).isSome) =
      if n = n then ((injectedOrigin origin).isSome || injectedTurn n es) else injectedTurn n es
    rw [if_pos rfl, h, Bool.or_comm]
  | result message => exact (if_pos rfl).symm
  | conversationReset =>
    show state.injected = if n = n then injectedTurn n es else injectedTurn n es
    rw [ite_self, h]
  | other content =>
    show state.injected = if n = n then injectedTurn n es else injectedTurn n es
    rw [ite_self, h]

theorem belongs_iff (h : state.injected = injectedTurn n es) (message : Message κ) :
    (belongsToInjectedTurn state message).1 = true ↔ Injected n es message := by
  cases message with
  | user origin content =>
    show (state.injected || (injectedOrigin origin).isSome) = true ↔ _
    rw [h, Bool.or_eq_true, or_comm]
    rfl
  | result message =>
    show ((injectedOrigin message.origin).isSome || (state.injected && message.origin.isNone)) =
      true ↔ _
    rw [h, Bool.or_eq_true, Bool.and_eq_true, Option.isNone_iff_eq_none, and_comm]
    rfl
  | conversationReset =>
    show state.injected = true ↔ _
    rw [h]
    rfl
  | other content =>
    show state.injected = true ↔ _
    rw [h]
    rfl

/-! ## The turn and the transcript -/

/-- The state of the prompt in flight agrees with the transcript. -/
structure Tracks (n : ℕ) (es : List (Entry κ ε)) (state : ClaudeTurnState ρ) : Prop where
  costBaseline : state.costBaseline = baseline es
  injectedCost : state.injectedCost = chargedTo n es
  nonneg : 0 ≤ state.injectedCost
  injected : state.injected = injectedTurn n es

/-- The total of a result is no smaller than the one before. -/
def Grows (es : List (Entry κ ε)) (message : ResultMessage) : Prop :=
  ∀ total ∈ message.totalCostUsd, runningTotal es ≤ total

variable {message : ResultMessage}

/-- Against a known baseline the whole advance is charged. -/
theorem max_advance {total known : ℚ} (hgrows : Grows es message)
    (htotal : message.totalCostUsd = some total) (hknown : baseline es = some known) :
    max (total - known) 0 = advance es message := by
  rw [advance_eq htotal, hknown]
  have hle := hgrows total htotal
  rw [runningTotal_of_baseline hknown] at hle
  exact max_eq_left (sub_nonneg.mpr hle)

theorem Tracks.accountInjected (h : Tracks n es state) (hgrows : Grows es message) :
    Tracks n (.delivered n (.result message) (⟨[], none⟩ : Translation ε) :: es)
      ((belongsToInjectedTurn state (.result message : Message κ)).2.accountInjected message) := by
  have hinjected := belongs_injected h.injected (.result message) (⟨[], none⟩ : Translation ε)
  unfold ClaudeTurnState.accountInjected
  cases htotal : message.totalCostUsd with
  | none =>
    exact
      { costBaseline := by
          rw [baseline_untold htotal]
          exact h.costBaseline
        injectedCost := by
          rw [chargedTo_result, advance_untold htotal, zero_add]
          exact h.injectedCost
        nonneg := h.nonneg
        injected := hinjected }
  | some total =>
    rw [belongs_costBaseline]
    cases hknown : state.costBaseline with
    | none =>
      have hbaseline : baseline es = none := by rw [← h.costBaseline, hknown]
      exact
        { costBaseline := (baseline_total htotal).symm
          injectedCost := by
            rw [chargedTo_result, advance_eq htotal, hbaseline]
            show state.injectedCost = 0 + _
            rw [zero_add]
            exact h.injectedCost
          nonneg := h.nonneg
          injected := hinjected }
    | some known =>
      have hbaseline : baseline es = some known := by rw [← h.costBaseline, hknown]
      exact
        { costBaseline := (baseline_total htotal).symm
          injectedCost := by
            show state.injectedCost + max (total - known) 0 = _
            rw [chargedTo_result, max_advance hgrows htotal hbaseline, h.injectedCost, add_comm]
          nonneg := add_nonneg h.nonneg (le_max_right _ _)
          injected := hinjected }

/-- What the prompt's own result reports, and what it leaves to the next prompt. -/
theorem Tracks.messageCost (h : Tracks n es state) (hgrows : Grows es message)
    (translation : Translation ε) (hown : translation.outcome.isSome) :
    (messageCost (ε := ε) state message).1 =
        chargedTo n (.delivered n (.result message) translation :: es) ∧
      0 ≤ (messageCost (ε := ε) state message).1 ∧
      (messageCost (ε := ε) state message).2.1 =
        baseline (.delivered n (.result message) translation :: es) := by
  unfold Claude.messageCost
  rw [chargedTo_result]
  cases htotal : message.totalCostUsd with
  | none =>
    refine ⟨?_, h.nonneg, ?_⟩
    · rw [advance_untold htotal, zero_add]
      exact h.injectedCost
    · rw [baseline_untold htotal, if_pos hown]
  | some total =>
    rw [baseline_total htotal]
    cases hknown : state.costBaseline with
    | none =>
      have hbaseline : baseline es = none := by rw [← h.costBaseline, hknown]
      refine ⟨?_, h.nonneg, rfl⟩
      rw [advance_eq htotal, hbaseline]
      show state.injectedCost = 0 + _
      rw [zero_add]
      exact h.injectedCost
    | some known =>
      have hbaseline : baseline es = some known := by rw [← h.costBaseline, hknown]
      refine ⟨?_, add_nonneg h.nonneg (le_max_right _ _), rfl⟩
      show state.injectedCost + max (total - known) 0 = _
      rw [max_advance hgrows htotal hbaseline, h.injectedCost, add_comm]

/-- A message that has no say in costs. -/
theorem Tracks.passed (h : Tracks n es state) {message : Message κ} {translation : Translation ε}
    {state' : ClaudeTurnState ρ} (hbaseline : baseline (.delivered n message translation :: es) =
      baseline es)
    (hcharged : chargedTo n (.delivered n message translation :: es) = chargedTo n es)
    (hcost : state'.costBaseline = state.costBaseline)
    (hspent : state'.injectedCost = state.injectedCost)
    (hinjected : state'.injected = (belongsToInjectedTurn state message).2.injected) :
    Tracks n (.delivered n message translation :: es) state' where
  costBaseline := by rw [hcost, h.costBaseline, hbaseline]
  injectedCost := by rw [hspent, h.injectedCost, hcharged]
  nonneg := hspent ▸ h.nonneg
  injected := hinjected.trans (belongs_injected h.injected message translation)

/-! ## One message -/

/-- The cost that every outcome of a result carries. -/
theorem resultOutcome_cost (state : ClaudeTurnState ρ) (message : ResultMessage)
    (interrupted : Bool) (cost : ℚ) :
    (resultOutcome (ε := ε) state message interrupted cost).1.messageCostUsd = some cost := by
  unfold resultOutcome
  split
  · rfl
  · split
    · rfl
    · rfl

/-- What a message does, where `es` is the transcript before it. -/
structure Delivers (n : ℕ) (es : List (Entry κ ε)) (message : Message κ)
    (r : Translation ε × ClaudeTranslator × ClaudeTurnState ρ) : Prop where
  goesOn : r.1.outcome = none → Tracks n (.delivered n message r.1 :: es) r.2.2
  ends : ∀ outcome, r.1.outcome = some outcome →
    (∃ result, message = .result result) ∧ ¬ Injected n es message ∧
      (∃ cost, outcome.messageCostUsd = some cost ∧ 0 ≤ cost ∧
        cost = chargedTo n (.delivered n message r.1 :: es)) ∧
      r.2.1.costBaseline = baseline (.delivered n message r.1 :: es)
  quiet : Injected n es message → r.1.events = [] ∧ r.1.outcome = none

/-- A message that ends nothing. -/
theorem Delivers.of_goesOn {message : Message κ} {events : List (Event ε)}
    {translator : ClaudeTranslator} {state' : ClaudeTurnState ρ}
    (htracks : Tracks n (.delivered n message (⟨events, none⟩ : Translation ε) :: es) state')
    (hquiet : Injected n es message → events = []) :
    Delivers n es message (⟨events, none⟩, translator, state') where
  goesOn := fun _ => htracks
  ends := by
    intro outcome h
    cases h
  quiet := fun h => ⟨hquiet h, rfl⟩

theorem Tracks.translateResult (h : Tracks n es state) (hgrows : Grows es message)
    (hown : ¬ Injected n es (.result message : Message κ)) (translator : ClaudeTranslator)
    (interrupted : Bool) (uuid : String) :
    Delivers (κ := κ) (ε := ε) n es (.result message) (translator.translateResult
      (belongsToInjectedTurn state (.result message : Message κ)).2 message interrupted uuid) := by
  obtain ⟨hcost, hnonneg, hbaseline⟩ := h.messageCost (κ := κ) (ε := ε) hgrows (translator.translateResult
    (belongsToInjectedTurn state (.result message : Message κ)).2 message interrupted uuid).1 rfl
  exact
    { goesOn := by
        intro hnone
        cases hnone
      ends := by
        intro outcome houtcome
        refine ⟨⟨message, rfl⟩, hown, ⟨_, ?_, hnonneg, hcost⟩, hbaseline⟩
        cases houtcome
        exact resultOutcome_cost _ _ _ _
      quiet := fun hinjected => absurd hinjected hown }

/-- **One message.** It keeps the turn in step with the transcript, or ends the prompt. -/
theorem Tracks.translate (h : Tracks n es state) (contents : Contents κ ρ ε) {message : Message κ}
    (hgrows : ∀ result, message = .result result → Grows es result)
    (translator : ClaudeTranslator) (interrupted : Bool) (uuid : String) :
    Delivers n es message (translator.translate contents state message interrupted uuid) := by
  have hbelongs := belongs_iff h.injected message
  cases message with
  | conversationReset =>
    refine .of_goesOn ?_ fun _ => rfl
    exact
      { h with
        costBaseline := rfl
        injected := belongs_injected h.injected .conversationReset _ }
  | result result =>
    have hgrows := hgrows result rfl
    unfold ClaudeTranslator.translate
    dsimp only
    split
    next => exact .of_goesOn (h.accountInjected hgrows) fun _ => rfl
    next hown => exact h.translateResult hgrows (mt hbelongs.mpr hown) _ _ _
  | user origin content =>
    unfold ClaudeTranslator.translate
    dsimp only
    split
    next => exact .of_goesOn (h.passed rfl rfl rfl rfl rfl) fun _ => rfl
    next hown =>
      exact .of_goesOn (h.passed rfl rfl rfl rfl rfl) fun hinjected =>
        absurd (hbelongs.mpr hinjected) hown
  | other content =>
    unfold ClaudeTranslator.translate
    dsimp only
    split
    next => exact .of_goesOn (h.passed rfl rfl rfl rfl rfl) fun _ => rfl
    next hown =>
      exact .of_goesOn (h.passed rfl rfl rfl rfl rfl) fun hinjected =>
        absurd (hbelongs.mpr hinjected) hown

end BackgroundAgents.Harness.Claude

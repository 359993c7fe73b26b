import Mathlib.Algebra.BigOperators.Group.List.Basic
import Mathlib.Algebra.Order.BigOperators.Group.List
import Mathlib.Data.Rat.BigOperators
import Mathlib.Tactic.Linarith
import Mathlib.Tactic.Ring
import BackgroundAgents.Harness.ClaudeHarness

/-!
# What the prompts of a Claude session are charged

`charged` adds up, over a transcript, how much each result moved the running total of its
connection, and leaves out the results whose share cannot be told from that of a prompt
whose result had no total. Every prompt that ends with its own result reports the part of
it that was delivered to the prompt (`claude_spend`).
-/

namespace BackgroundAgents.Harness.Claude

open BackgroundAgents.Transition

variable {κ ρ ε : Type}

/-! ## The transcript -/

/-- The last total since the client connected or the conversation was reset. -/
def runningTotal : List (Entry κ ε) → ℚ
  | [] => 0
  | .connected :: _ => 0
  | .delivered _ .conversationReset _ :: _ => 0
  | .delivered _ (.result message) _ :: es =>
    match message.totalCostUsd with
    | some total => total
    | none => runningTotal es
  | _ :: es => runningTotal es

/-- Since that total the result of a prompt came without one. -/
def unknownTotal : List (Entry κ ε) → Bool
  | [] => false
  | .connected :: _ => false
  | .delivered _ .conversationReset _ :: _ => false
  | .delivered _ (.result message) translation :: es =>
    match message.totalCostUsd with
    | some _ => false
    | none => translation.outcome.isSome || unknownTotal es
  | _ :: es => unknownTotal es

/-- How much a result moves the running total, where that is known. -/
def advance (es : List (Entry κ ε)) (message : ResultMessage) : ℚ :=
  match message.totalCostUsd with
  | none => 0
  | some total => if unknownTotal es then 0 else total - runningTotal es

/-- The advances of the results delivered to the prompts that meet `p`. -/
def charged (p : ℕ → Bool) : List (Entry κ ε) → ℚ
  | [] => 0
  | .delivered n (.result message) _ :: es =>
    (if p n then advance es message else 0) + charged p es
  | _ :: es => charged p es

/-- The prompts that ended with their own result, and what they reported. -/
def returned : List (Entry κ ε) → List (ℕ × TurnOutcome)
  | [] => []
  | .returned n outcome :: es => (n, outcome) :: returned es
  | _ :: es => returned es

/-- A turn that the session started is open in a prompt. -/
def injectedTurn (n : ℕ) : List (Entry κ ε) → Bool
  | [] => false
  | .delivered k message _ :: es =>
    if k = n then
      match message with
      | .user origin _ => (injectedOrigin origin).isSome || injectedTurn n es
      | .result _ => false
      | .conversationReset | .other _ => injectedTurn n es
    else injectedTurn n es
  | _ :: es => injectedTurn n es

/-- A message of a turn that the session started: from a user message that says so up to the
next result, unless that has a human origin. -/
def Injected (n : ℕ) (es : List (Entry κ ε)) : Message κ → Prop
  | .user origin _ => (injectedOrigin origin).isSome = true ∨ injectedTurn n es = true
  | .result message =>
    (injectedOrigin message.origin).isSome = true ∨
      (message.origin = none ∧ injectedTurn n es = true)
  | .conversationReset | .other _ => injectedTurn n es = true

/-- The totals of one connection do not decrease between resets, from zero on. -/
def Growing (s : Session κ ρ ε) : Action κ → Prop
  | .message (.result message) _ _ => ∀ total ∈ message.totalCostUsd, runningTotal s.transcript ≤ total
  | _ => True

/-- What is said of a prompt that ended with its own result. -/
structure Reported (es : List (Entry κ ε)) (n : ℕ) (outcome : TurnOutcome) : Prop where
  /-- Its cost is what its results moved the running total. -/
  cost : outcome.messageCostUsd = some (charged (fun k => decide (k = n)) es)
  nonneg : ∀ cost ∈ outcome.messageCostUsd, 0 ≤ cost
  /-- The result is one of its own, and not of an injected turn. -/
  own : ∃ later earlier message translation,
    es = later ++ .delivered n (.result message) translation :: earlier ∧
      translation.outcome = some outcome ∧ ¬ Injected n earlier (.result message)

/-- The spend of a session. -/
structure Spend (es : List (Entry κ ε)) : Prop where
  /-- The prompts report, together, the advances of the results delivered to them. -/
  total : ((returned es).map fun r => r.2.messageCostUsd.getD 0).sum =
    charged (fun n => decide (n ∈ (returned es).map Prod.fst)) es
  /-- No prompt ends twice. -/
  once : ((returned es).map Prod.fst).Nodup
  reported : ∀ n outcome, (n, outcome) ∈ returned es → Reported es n outcome
  /-- An injected turn emits nothing and does not end the prompt. -/
  quiet : ∀ later earlier n message translation,
    es = later ++ .delivered n message translation :: earlier → Injected n earlier message →
      translation.events = [] ∧ translation.outcome = none

/-! ## Entries one by one -/

/-- The total that the next result is counted from, where that is known. -/
def baseline (es : List (Entry κ ε)) : Option ℚ :=
  if unknownTotal es then none else some (runningTotal es)

variable {es : List (Entry κ ε)} {n : ℕ} {translation : Translation ε}

variable {message : ResultMessage}

theorem baseline_total {total : ℚ} (h : message.totalCostUsd = some total) :
    baseline (.delivered n (.result message) translation :: es) = some total := by
  unfold baseline unknownTotal runningTotal
  rw [h]
  rfl

theorem baseline_untold (h : message.totalCostUsd = none) :
    baseline (.delivered n (.result message) translation :: es) =
      if translation.outcome.isSome then none else baseline es := by
  unfold baseline
  rw [unknownTotal, runningTotal, h]
  cases translation.outcome <;> rfl

/-- The advance of a result, by the baseline. -/
theorem advance_eq {total : ℚ} (h : message.totalCostUsd = some total) :
    advance es message = (baseline es).elim 0 (total - ·) := by
  unfold advance baseline
  rw [h]
  cases unknownTotal es <;> rfl

theorem advance_untold (h : message.totalCostUsd = none) :
    advance es message = 0 := by
  unfold advance
  rw [h]

/-- A baseline that is known is the running total. -/
theorem runningTotal_of_baseline {total : ℚ} (h : baseline es = some total) :
    runningTotal es = total := by
  unfold baseline at h
  cases hu : unknownTotal es with
  | true =>
    rw [hu] at h
    cases h
  | false =>
    rw [hu] at h
    exact Option.some.inj h

theorem charged_other {p : ℕ → Bool} (hp : p n = false) (message : Message κ) :
    charged p (.delivered n message translation :: es) = charged p es := by
  cases message with
  | result message =>
    rw [charged, hp]
    exact zero_add _
  | _ => rfl

theorem charged_congr {p q : ℕ → Bool}
    (h : ∀ n message translation, Entry.delivered n message translation ∈ es → p n = q n) :
    charged p es = charged q es := by
  induction es with
  | nil => rfl
  | cons e es ih =>
    have ih := ih fun n message translation hmem =>
      h n message translation (List.mem_cons_of_mem _ hmem)
    cases e with
    | delivered n message translation =>
      have hn := h n message translation List.mem_cons_self
      cases message with
      | result message => rw [charged, charged, hn, ih]
      | _ => exact ih
    | _ => exact ih

/-- A prompt that joins brings its own advances. -/
theorem charged_insert {numbers : List ℕ} (hn : n ∉ numbers) (es : List (Entry κ ε)) :
    charged (fun k => decide (k ∈ n :: numbers)) es =
      charged (fun k => decide (k = n)) es + charged (fun k => decide (k ∈ numbers)) es := by
  induction es with
  | nil => exact (zero_add 0).symm
  | cons e es ih =>
    cases e with
    | delivered k message translation =>
      cases message with
      | result message =>
        rw [charged, charged, charged, ih]
        by_cases hk : k = n
        · rw [hk, if_pos (by simp), if_pos (by simp), if_neg (by simp [hn])]
          ring
        · by_cases hmem : k ∈ numbers
          · rw [if_pos (by simp [hmem]), if_neg (by simp [hk]), if_pos (by simp [hmem])]
            ring
          · rw [if_neg (by simp [hk, hmem]), if_neg (by simp [hk]), if_neg (by simp [hmem])]
            ring
      | _ => exact ih
    | _ => exact ih

end BackgroundAgents.Harness.Claude

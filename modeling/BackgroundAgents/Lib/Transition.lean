/-!
# Transition systems

A system that moves one atomic step at a time: `System.step` says what a step
does, or that it is not possible there. `System.Reachable` are the states that
steps meeting a condition lead to, and `System.Reachable.inv` is its invariant
rule. `System.run` executes a list of steps, for the runs that are written out.
-/

namespace BackgroundAgents.Transition

variable {σ α : Type}

/-- A system: what each step does, `none` where it cannot be taken. -/
structure System (σ α : Type) where
  step : σ → α → Option σ

/-- The states reached from `s₀` by steps that meet `ok`. -/
inductive System.Reachable (sys : System σ α) (ok : σ → α → Prop) (s₀ : σ) : σ → Prop where
  | refl : Reachable sys ok s₀ s₀
  | step {s t : σ} {a : α} :
    Reachable sys ok s₀ s → ok s a → sys.step s a = some t → Reachable sys ok s₀ t

/-- Steps of any kind. -/
def anyStep : σ → α → Prop := fun _ _ => True

instance : ∀ (s : σ) (a : α), Decidable (anyStep s a) := fun _ _ => .isTrue trivial

variable {sys : System σ α} {ok : σ → α → Prop} {s₀ s t : σ}

/-- **The invariant rule.** What holds at the start and is preserved by every
permitted step holds in every state reached. -/
theorem System.Reachable.inv (h : sys.Reachable ok s₀ s) (I : σ → Prop) (init : I s₀)
    (step : ∀ s a t, I s → ok s a → sys.step s a = some t → I t) : I s := by
  induction h with
  | refl => exact init
  | step _ hok hstep ih => exact step _ _ _ ih hok hstep

theorem System.Reachable.trans (h : sys.Reachable ok s₀ s) (h' : sys.Reachable ok s t) :
    sys.Reachable ok s₀ t := by
  induction h' with
  | refl => exact h
  | step _ hok hstep ih => exact .step ih hok hstep

/-- A weaker condition on the steps reaches no less. -/
theorem System.Reachable.mono {ok' : σ → α → Prop} (h : sys.Reachable ok s₀ s)
    (hok : ∀ s a, ok s a → ok' s a) : sys.Reachable ok' s₀ s := by
  induction h with
  | refl => exact .refl
  | step _ hs hstep ih => exact .step ih (hok _ _ hs) hstep

/-- A run all of whose steps meet a decidable condition. -/
def System.run (sys : System σ α) (ok : σ → α → Prop) [∀ s a, Decidable (ok s a)] (s : σ) :
    List α → Option σ
  | [] => some s
  | a :: as => if ok s a then (sys.step s a).bind (sys.run ok · as) else none

theorem System.run_reachable [∀ s a, Decidable (ok s a)] {as : List α}
    (h : sys.run ok s as = some t) : sys.Reachable ok s t := by
  induction as generalizing s with
  | nil =>
    cases h
    exact .refl
  | cons a as ih =>
    rw [System.run] at h
    split at h
    next hok =>
      obtain ⟨r, hr, h⟩ := Option.bind_eq_some_iff.mp h
      exact (System.Reachable.refl.step hok hr).trans (ih h)
    next => cases h

end BackgroundAgents.Transition

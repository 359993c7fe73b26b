import BackgroundAgents.Lib.Programs

/-!
# Bodies that run alone

A body that shares no state with other calls and only asks: for the output of a
command, for a file, for a fresh identifier. `Inquiry.Ends` are its runs, with the
answers it got, which may be any. The lemmas take such a run apart the way the body
was put together: `Ends.bind` at a sequence, `Ends.attempt` at a `try`, and
`Ends.handle` at a `try` with its `except`.
-/

namespace BackgroundAgents.Programs

variable {ω ε α β : Type} {ρ : ω → Type}

/-- A body without state. -/
abbrev Inquiry (ω : Type) (ρ : ω → Type) (ε α : Type) := Program Unit ω ρ ε α

/-- A question, and what was answered or raised. -/
abbrev Reply (ω : Type) (ρ : ω → Type) (ε : Type) := (o : ω) × Except ε (ρ o)

namespace Inquiry

/-- The body ends so after these answers. -/
inductive Ends : Inquiry ω ρ ε α → Except ε α → List (Reply ω ρ ε) → Prop where
  | done (a : α) : Ends (.done a) (.ok a) []
  | raise (e : ε) : Ends (.raise e) (.error e) []
  | read {next : Unit → Inquiry ω ρ ε α} {r : Except ε α} {asked : List (Reply ω ρ ε)} :
    Ends (next ()) r asked → Ends (.read next) r asked
  | write {next : Inquiry ω ρ ε α} {r : Except ε α} {asked : List (Reply ω ρ ε)} :
    Ends next r asked → Ends (.write () next) r asked
  | await {o : ω} {next : Except ε (ρ o) → Inquiry ω ρ ε α} {answer : Except ε (ρ o)}
    {r : Except ε α} {asked : List (Reply ω ρ ε)} :
    Ends (next answer) r asked → Ends (.await o next) r (⟨o, answer⟩ :: asked)

/-- The result, where every question has one answer. -/
def run (answer : (o : ω) → Except ε (ρ o)) : Inquiry ω ρ ε α → Except ε α
  | .done a => .ok a
  | .raise e => .error e
  | .read next => run answer (next ())
  | .write _ next => run answer next
  | .await o next => run answer (next (answer o))

/-- What is asked on the way. -/
def transcript (answer : (o : ω) → Except ε (ρ o)) : Inquiry ω ρ ε α → List (Reply ω ρ ε)
  | .done _ => []
  | .raise _ => []
  | .read next => transcript answer (next ())
  | .write _ next => transcript answer next
  | .await o next => ⟨o, answer o⟩ :: transcript answer (next (answer o))

theorem ends_run (answer : (o : ω) → Except ε (ρ o)) (p : Inquiry ω ρ ε α) :
    Ends p (p.run answer) (p.transcript answer) := by
  induction p with
  | done a => exact .done a
  | raise e => exact .raise e
  | read next ih => exact .read (ih ())
  | write s next ih => exact .write ih
  | await o next ih => exact .await (ih (answer o))

variable {p : Inquiry ω ρ ε α} {f : α → Inquiry ω ρ ε β} {asked : List (Reply ω ρ ε)}

theorem Ends.done_inv {a : α} {r : Except ε α}
    (h : Ends (.done a : Inquiry ω ρ ε α) r asked) : r = .ok a ∧ asked = [] := by
  cases h with
  | done => exact ⟨rfl, rfl⟩

/-- A sequence that ends well has come through its first part. -/
theorem Ends.bind {b : β} (h : Ends (p.bind f) (.ok b) asked) :
    ∃ a first second, asked = first ++ second ∧ Ends p (.ok a) first ∧
      Ends (f a) (.ok b) second := by
  induction p generalizing asked with
  | done a => exact ⟨a, [], asked, rfl, .done a, h⟩
  | raise e => cases h
  | read next ih =>
    cases h with
    | read h =>
      obtain ⟨a, first, second, hasked, hp, hf⟩ := ih () h
      exact ⟨a, first, second, hasked, .read hp, hf⟩
  | write s next ih =>
    cases h with
    | write h =>
      obtain ⟨a, first, second, hasked, hp, hf⟩ := ih h
      exact ⟨a, first, second, hasked, .write hp, hf⟩
  | await o next ih =>
    cases h with
    | await h =>
      obtain ⟨a, first, second, hasked, hp, hf⟩ := ih _ h
      exact ⟨a, _ :: first, second, congrArg (_ :: ·) hasked, .await hp, hf⟩

/-- What a `try` without `except` has caught. -/
theorem Ends.attempt {r : Except ε α} (h : Ends p.attempt (.ok r) asked) : Ends p r asked := by
  induction p generalizing asked with
  | done a =>
    cases h with
    | done => exact .done a
  | raise e =>
    cases h with
    | done => exact .raise e
  | read next ih =>
    cases h with
    | read h => exact .read (ih () h)
  | write s next ih =>
    cases h with
    | write h => exact .write (ih h)
  | await o next ih =>
    cases h with
    | await h => exact .await (ih _ h)

/-- A body that ends well under an `except` has ended well, or the handler has. -/
theorem Ends.handle {g : ε → Inquiry ω ρ ε α} {a : α} (h : Ends (p.handle g) (.ok a) asked) :
    Ends p (.ok a) asked ∨
      ∃ e first second, asked = first ++ second ∧ Ends p (.error e) first ∧
        Ends (g e) (.ok a) second := by
  induction p generalizing asked with
  | done b => exact .inl h
  | raise e => exact .inr ⟨e, [], asked, rfl, .raise e, h⟩
  | read next ih =>
    cases h with
    | read h =>
      rcases ih () h with h | ⟨e, first, second, hasked, hp, hg⟩
      · exact .inl (.read h)
      · exact .inr ⟨e, first, second, hasked, .read hp, hg⟩
  | write s next ih =>
    cases h with
    | write h =>
      rcases ih h with h | ⟨e, first, second, hasked, hp, hg⟩
      · exact .inl (.write h)
      · exact .inr ⟨e, first, second, hasked, .write hp, hg⟩
  | await o next ih =>
    cases h with
    | await h =>
      rcases ih _ h with h | ⟨e, first, second, hasked, hp, hg⟩
      · exact .inl (.await h)
      · exact .inr ⟨e, _ :: first, second, congrArg (_ :: ·) hasked, .await hp, hg⟩

theorem Ends.perform {o : ω} {a : ρ o}
    (h : Ends (Program.perform o : Inquiry ω ρ ε (ρ o)) (.ok a) asked) :
    asked = [⟨o, .ok a⟩] := by
  cases h with
  | @await _ _ answer _ rest h =>
    cases answer with
    | ok b =>
      obtain ⟨hok, hnil⟩ := h.done_inv
      rw [Except.ok.inj hok, hnil]
    | error e => cases h

theorem Ends.ofExcept {r : Except ε α} {a : α}
    (h : Ends (Program.ofExcept r : Inquiry ω ρ ε α) (.ok a) asked) : r = .ok a ∧ asked = [] := by
  cases r with
  | ok b =>
    obtain ⟨hok, hnil⟩ := h.done_inv
    exact ⟨hok.symm, hnil⟩
  | error e => cases h

end Inquiry

end BackgroundAgents.Programs

import BackgroundAgents.Session.CostAccounting
import Mathlib.Logic.Function.Basic
import Mathlib.Logic.Relation

/-!
# The life of a message

The prompt queue, abstractly: a partial map from ids to rows, and the few ways
in which it moves. `LifeStep` is everything that may happen at any time (a
message is queued, removed while pending, ends, is stopped, has its fence lifted
or its report raised). `DispatchStep` is what only a pump does: it claims the
head of the queue, and gives a claim back.

`QueueInv` is what holds of the map along every such step. Its point is
`Head`: a pending message that is first in line, with nothing processing and no
fence. A message that is picked as the head *stays* the head for as long as it
is pending (`LifeStep.head`, `DispatchStep.head`), so that a pump need not
re-read the fence or the order when it comes back to claim it. The reasons are
the fields of `QueueInv`: a newer message sorts behind, a fence is only ever set
on what was processing, and a claim given back sorts before everything that
stayed pending.
-/

namespace BackgroundAgents.Session

/-- The messages of a session, by id. -/
abbrev MessageMap := MessageId → Option MessageRow

/-- The message `m` is pending, first in line, and nothing holds the queue. -/
structure Head (q : MessageMap) (row : MessageRow) : Prop where
  idle : ∀ k x, q k = some x → x.status ≠ .processing
  unfenced : ∀ k x, q k = some x → x.stopConfirmationDeadline = none
  first : ∀ k x, q k = some x → x.status = .pending → row.queueKey ≤ x.queueKey

/-- What may happen to the messages at `now`. `new` is the id generated for the turn. -/
inductive LifeStep (now : Millis) (new : Option MessageId) : MessageMap → MessageMap → Prop where
  | insert {q : MessageMap} {row : MessageRow} : new = some row.id → q row.id = none →
      row.status = .pending → row.stopConfirmationDeadline = none → row.mcpRevision = 0 →
      row.createdAt = now → (∀ k x, q k = some x → x.rowid < row.rowid) →
      LifeStep now new q (Function.update q row.id (some row))
  | remove {q : MessageMap} {m : MessageId} {row : MessageRow} : q m = some row →
      row.status = .pending → LifeStep now new q (Function.update q m none)
  | finish {q : MessageMap} {m : MessageId} {row : MessageRow} (o : ExecutionOutcome)
      (t : Millis) : q m = some row → row.status.unfinished = true →
      LifeStep now new q (Function.update q m (some (row.finish o t)))
  | stop {q : MessageMap} {m : MessageId} {row : MessageRow} (reason : String) :
      q m = some row → row.status = .processing →
      LifeStep now new q (Function.update q m (some (row.stop reason now)))
  | unfence {q : MessageMap} {m : MessageId} {row : MessageRow} : q m = some row →
      LifeStep now new q (Function.update q m (some row.unfence))
  | report {q : MessageMap} {m : MessageId} {row : MessageRow} (cost : ℚ) : q m = some row →
      LifeStep now new q (Function.update q m (some (row.report cost)))

/-- What a pump does to the messages. -/
inductive DispatchStep : MessageMap → MessageMap → Prop where
  | claim {q : MessageMap} {m : MessageId} {row : MessageRow} (t : Millis) : q m = some row →
      row.status = .pending → Head q row →
      DispatchStep q (Function.update q m (some (row.claim t)))
  | revert {q : MessageMap} {m : MessageId} {row : MessageRow} : q m = some row →
      row.status = .processing → DispatchStep q (Function.update q m (some row.revert))

/-- What holds of the messages in every state. -/
structure QueueInv (now : Millis) (issued : List MessageId) (q : MessageMap) : Prop where
  id : ∀ m x, q m = some x → x.id = m
  issued : ∀ m x, q m = some x → m ∈ issued
  past : ∀ m x, q m = some x → x.createdAt ≤ now
  rowid : ∀ m x m' x', q m = some x → q m' = some x' → x.rowid = x'.rowid → m = m'
  one : ∀ m x m' x', q m = some x → q m' = some x' → x.status = .processing →
    x'.status = .processing → m = m'
  oneFence : ∀ m x m' x', q m = some x → q m' = some x' → x.stopConfirmationDeadline ≠ none →
    x'.stopConfirmationDeadline ≠ none → m = m'
  fenced : ∀ m x, q m = some x → x.stopConfirmationDeadline ≠ none → x.status = .failed
  unfenced : ∀ m x m' x', q m = some x → q m' = some x' → x.status = .processing →
    x'.stopConfirmationDeadline = none
  order : ∀ m x m' x', q m = some x → q m' = some x' → x.status = .processing →
    x'.status = .pending → x.queueKey ≤ x'.queueKey

/-! ## Rows compared -/

/-- What no step changes of a row. -/
structure SameRow (row row' : MessageRow) : Prop where
  id : row'.id = row.id
  rowid : row'.rowid = row.rowid
  createdAt : row'.createdAt = row.createdAt

variable {row row' : MessageRow}

theorem SameRow.queueKey (h : SameRow row row') :
    row'.queueKey = row.queueKey := by
  rw [MessageRow.queueKey, MessageRow.queueKey, h.createdAt, h.rowid]

@[simp] theorem finish_status (row : MessageRow) (o : ExecutionOutcome) (t : Millis) :
    (row.finish o t).status = o.status := rfl

@[simp] theorem finish_fence (row : MessageRow) (o : ExecutionOutcome) (t : Millis) :
    (row.finish o t).stopConfirmationDeadline = row.stopConfirmationDeadline := rfl

@[simp] theorem stop_status (row : MessageRow) (reason : String) (now : Millis) :
    (row.stop reason now).status = .failed := rfl

theorem ExecutionOutcome.status_terminal (o : ExecutionOutcome) :
    o.status = .completed ∨ o.status = .failed := by
  unfold ExecutionOutcome.status
  split
  · exact .inl rfl
  · exact .inr rfl

variable {issued : List MessageId} {now : Millis}

variable {q : MessageMap}

/-- Keys of different messages differ. -/
theorem QueueInv.eq_of_queueKey (h : QueueInv now issued q) {m m' : MessageId} {x x' : MessageRow}
    (hm : q m = some x) (hm' : q m' = some x') (hkey : x.queueKey = x'.queueKey) :
    m = m' := by
  have hpair : (x.createdAt, x.rowid) = (x'.createdAt, x'.rowid) := toLex.injective hkey
  exact h.rowid m x m' x' hm hm' (Prod.ext_iff.mp hpair).2

/-- A newer row sorts behind. -/
theorem queueKey_lt_of_newer {x row : MessageRow} (hcreated : x.createdAt ≤ row.createdAt)
    (hrowid : x.rowid < row.rowid) : x.queueKey < row.queueKey := by
  rw [MessageRow.queueKey, MessageRow.queueKey, Prod.Lex.toLex_lt_toLex]
  rcases Nat.lt_or_eq_of_le hcreated with hlt | heq
  · exact .inl hlt
  · exact .inr ⟨heq, hrowid⟩

/-! ## The invariant along a step -/

variable {m : MessageId}

/-- A rewritten row keeps the identity fields of the invariant. -/
theorem QueueInv.rewrite
    (h : QueueInv now issued q) (hm : q m = some row)
    (hsame : SameRow row row')
    (hone : row'.status = .processing → ∀ k x, q k = some x → x.status = .processing → k = m)
    (honeFence : row'.stopConfirmationDeadline ≠ none →
      ∀ k x, q k = some x → x.stopConfirmationDeadline ≠ none → k = m)
    (hfenced : row'.stopConfirmationDeadline ≠ none → row'.status = .failed)
    (hunfenced : row'.status = .processing →
      ∀ k x, q k = some x → x.stopConfirmationDeadline = none)
    (hunfenced' : row'.stopConfirmationDeadline ≠ none →
      ∀ k x, q k = some x → x.status = .processing → k = m)
    (horder : row'.status = .processing →
      ∀ k x, q k = some x → x.status = .pending → row.queueKey ≤ x.queueKey)
    (horder' : row'.status = .pending →
      ∀ k x, q k = some x → x.status = .processing → k ≠ m → x.queueKey ≤ row.queueKey) :
    QueueInv now issued (Function.update q m (some row')) := by
  have hid := h.id m row hm
  have hkey := hsame.queueKey
  obtain ⟨h1, h2, h3⟩ := hsame
  constructor <;> grind [Function.update_apply, QueueInv]

/-- A message that is removed takes its obligations with it. -/
theorem QueueInv.remove (h : QueueInv now issued q) (m : MessageId) :
    QueueInv now issued (Function.update q m none) := by
  constructor <;> grind [Function.update_apply, QueueInv]

/-- A new message sorts behind every other. -/
theorem QueueInv.insert (h : QueueInv now issued q) {row : MessageRow} (hissued : row.id ∈ issued)
    (hpending : row.status = .pending) (hfence : row.stopConfirmationDeadline = none)
    (hcreated : row.createdAt = now) (hrowid : ∀ k x, q k = some x → x.rowid < row.rowid) :
    QueueInv now issued (Function.update q row.id (some row)) := by
  have hnewer : ∀ k x, q k = some x → x.queueKey ≤ row.queueKey := by
    intro k x hx
    exact (queueKey_lt_of_newer (hcreated ▸ h.past k x hx) (hrowid k x hx)).le
  constructor <;> grind [Function.update_apply, QueueInv]

variable {new : Option MessageId} {q q' : MessageMap}

theorem LifeStep.inv (hs : LifeStep now new q q') (hnew : ∀ m, new = some m → m ∈ issued)
    (h : QueueInv now issued q) : QueueInv now issued q' := by
  cases hs with
  | insert hid _ hpending hfence _ hcreated hrowid =>
    exact h.insert (hnew _ hid) hpending hfence hcreated hrowid
  | remove hm _ => exact h.remove _
  | finish o t hm hopen =>
    have hfence := h.fenced _ _ hm
    rcases o.status_terminal with ho | ho <;>
      refine h.rewrite hm ⟨rfl, rfl, rfl⟩ ?_ ?_ ?_ ?_ ?_ ?_ ?_ <;>
      grind [finish_status, finish_fence, MessageStatus.unfinished]
  | stop reason hm hprocessing =>
    refine h.rewrite hm ⟨rfl, rfl, rfl⟩ nofun ?_ (fun _ => rfl) nofun ?_ nofun nofun
    · intro _ k x hx hfence
      exact absurd (h.unfenced _ _ k x hm hx hprocessing) hfence
    · intro _ k x hx hx'
      exact h.one k x _ _ hx hm hx' hprocessing
  | unfence hm =>
    refine h.rewrite hm ⟨rfl, rfl, rfl⟩ ?_ (fun hne => absurd rfl hne) (fun hne => absurd rfl hne)
      ?_ (fun hne => absurd rfl hne) ?_ ?_
    · intro hp k x hx hx'
      exact h.one k x _ _ hx hm hx' hp
    · intro hp k x hx
      exact h.unfenced _ _ k x hm hx hp
    · intro hp k x hx hx'
      exact h.order _ _ k x hm hx hp hx'
    · intro hp k x hx hx' _
      exact h.order k x _ _ hx hm hx' hp
  | report cost hm =>
    have hfenced := h.fenced _ _ hm
    refine h.rewrite hm ⟨rfl, rfl, rfl⟩ ?_ ?_ hfenced ?_ ?_ ?_ ?_
    · intro hp k x hx hx'
      exact h.one k x _ _ hx hm hx' hp
    · intro hf k x hx hx'
      exact h.oneFence k x _ _ hx hm hx' hf
    · intro hp k x hx
      exact h.unfenced _ _ k x hm hx hp
    · intro hf k x hx hx'
      exact absurd (h.unfenced k x _ _ hx hm hx') hf
    · intro hp k x hx hx'
      exact h.order _ _ k x hm hx hp hx'
    · intro hp k x hx hx' _
      exact h.order k x _ _ hx hm hx' hp

theorem DispatchStep.inv (hs : DispatchStep q q') (h : QueueInv now issued q) :
    QueueInv now issued q' := by
  cases hs with
  | claim t hm hpending hhead =>
    have hfence := hhead.unfenced _ _ hm
    refine h.rewrite hm ⟨rfl, rfl, rfl⟩ ?_ (fun hne => absurd hfence hne)
      (fun hne => absurd hfence hne) (fun _ => hhead.unfenced) (fun hne => absurd hfence hne)
      (fun _ => hhead.first) nofun
    intro _ k x hx hx'
    exact absurd hx' (hhead.idle k x hx)
  | revert hm hprocessing =>
    have hfence := h.unfenced _ _ _ _ hm hm hprocessing
    refine h.rewrite hm ⟨rfl, rfl, rfl⟩ nofun (fun hne => absurd hfence hne)
      (fun hne => absurd hfence hne) nofun (fun hne => absurd hfence hne) nofun ?_
    intro _ k x hx hx' hne
    exact absurd (h.one k x _ _ hx hm hx' hprocessing) hne

/-! ## The head along a step -/

/-- What a pump relies on when it comes back to claim `m`: if it is still pending, it
is still the head. -/
def Picked (q : MessageMap) (m : MessageId) : Prop :=
  ∀ row, q m = some row → row.status = .pending → Head q row

/-- Rewriting a row without moving its status, and at most lifting its fence, keeps
what was picked. -/
theorem picked_of_sameStatus {m k : MessageId}
    (hp : Picked q m) (hk : q k = some row) (hsame : SameRow row row')
    (hstatus : row'.status = row.status)
    (hfence : row'.stopConfirmationDeadline = none ∨
      row'.stopConfirmationDeadline = row.stopConfirmationDeadline) :
    Picked (Function.update q k (some row')) m := by
  intro x hx hpending
  have hkey := hsame.queueKey
  by_cases hmk : m = k
  · rw [hmk, Function.update_self] at hx
    cases hx
    obtain ⟨hidle, hunf, hfirst⟩ := hp row (hmk ▸ hk) (hstatus ▸ hpending)
    constructor <;> grind [Function.update_apply]
  · rw [Function.update_of_ne hmk] at hx
    obtain ⟨hidle, hunf, hfirst⟩ := hp x hx hpending
    constructor <;> grind [Function.update_apply]

theorem LifeStep.picked (hs : LifeStep now new q q') (h : QueueInv now issued q) (hm : new ≠ some m)
    (hp : Picked q m) : Picked q' m := by
  cases hs with
  | @insert new' hid hnone hpending hfence _ hcreated hrowid =>
    intro row hrow hstatus
    have hne : m ≠ new'.id := by
      rintro rfl
      exact hm hid
    rw [Function.update_of_ne hne] at hrow
    obtain ⟨hidle, hunf, hfirst⟩ := hp row hrow hstatus
    have hnewer := (queueKey_lt_of_newer (hcreated ▸ h.past m row hrow) (hrowid m row hrow)).le
    constructor <;> grind [Function.update_apply]
  | remove hk hpending =>
    intro row hrow hstatus
    have hrow' : q m = some row := by grind [Function.update_apply]
    obtain ⟨hidle, hunf, hfirst⟩ := hp row hrow' hstatus
    constructor <;> grind [Function.update_apply]
  | finish o t hk hopen =>
    intro row hrow hstatus
    rcases o.status_terminal with ho | ho <;>
    · have hrow' : q m = some row := by grind [Function.update_apply, finish_status]
      obtain ⟨hidle, hunf, hfirst⟩ := hp row hrow' hstatus
      constructor <;> grind [Function.update_apply, finish_status, finish_fence]
  | stop reason hk hprocessing =>
    intro row hrow hstatus
    have hrow' : q m = some row := by grind [Function.update_apply, stop_status]
    -- what is stopped was processing, which excludes that `m` was still waiting
    exact absurd hprocessing ((hp row hrow' hstatus).idle _ _ hk)
  | unfence hk => exact picked_of_sameStatus hp hk ⟨rfl, rfl, rfl⟩ rfl (.inl rfl)
  | report cost hk => exact picked_of_sameStatus hp hk ⟨rfl, rfl, rfl⟩ rfl (.inr rfl)

/-- Claims and reverts by any pump keep what another has picked: two heads are one
message, and a claim given back goes in front of what was behind it. -/
theorem DispatchStep.picked (hs : DispatchStep q q') (h : QueueInv now issued q) (hp : Picked q m) :
    Picked q' m := by
  cases hs with
  | @claim k row' t hk hpending hhead =>
    intro row hrow hstatus
    by_cases hmk : m = k
    · rw [hmk, Function.update_self] at hrow
      cases hrow
      cases hstatus
    · rw [Function.update_of_ne hmk] at hrow
      have hmine := (hp row hrow hstatus).first k row' hk hpending
      have hother := hhead.first m row hrow hstatus
      exact absurd (h.eq_of_queueKey hrow hk (le_antisymm hmine hother)) hmk
  | @revert k row' hk hprocessing =>
    intro row hrow hstatus
    by_cases hmk : m = k
    · rw [hmk, Function.update_self] at hrow
      cases hrow
      have hunf := fun k x hx => h.unfenced _ _ k x hk hx hprocessing
      have hone := fun k x hx => h.one k x _ _ hx hk
      have hfirst := fun k x hx => h.order _ _ k x hk hx hprocessing
      have hkey : (row'.revert).queueKey = row'.queueKey := rfl
      have hrevert : (row'.revert).status = .pending := rfl
      have hfence : (row'.revert).stopConfirmationDeadline = row'.stopConfirmationDeadline := rfl
      constructor <;> grind [Function.update_apply]
    · rw [Function.update_of_ne hmk] at hrow
      exact absurd hprocessing ((hp row hrow hstatus).idle k row' hk)

/-! ## One message along many steps -/

/-- Any number of life steps, within one turn. -/
abbrev LifeSteps (now : Millis) (new : Option MessageId) : MessageMap → MessageMap → Prop :=
  Relation.ReflTransGen (LifeStep now new)

theorem LifeSteps.inv (hs : LifeSteps now new q q') (hnew : ∀ m, new = some m → m ∈ issued)
    (h : QueueInv now issued q) : QueueInv now issued q' := by
  induction hs with
  | refl => exact h
  | tail _ hs ih => exact hs.inv hnew ih

theorem LifeSteps.picked (hs : LifeSteps now new q q') (hnew : ∀ m, new = some m → m ∈ issued)
    (h : QueueInv now issued q) (hm : new ≠ some m) (hp : Picked q m) : Picked q' m := by
  induction hs with
  | refl => exact hp
  | tail hs' hs ih => exact hs.picked (LifeSteps.inv hs' hnew h) hm ih

/-- Nothing but a claim makes a message processing, and a claim is its revision. -/
theorem LifeStep.processing (hs : LifeStep now new q q') {x' : MessageRow} (hx' : q' m = some x')
    (hprocessing : x'.status = .processing) :
    ∃ x, q m = some x ∧ x.status = .processing ∧ x'.mcpRevision = x.mcpRevision := by
  cases hs with
  | @insert row _ _ hpending =>
    by_cases hm : m = row.id
    · rw [hm, Function.update_self] at hx'
      cases hx'
      rw [hpending] at hprocessing
      cases hprocessing
    · rw [Function.update_of_ne hm] at hx'
      exact ⟨x', hx', hprocessing, rfl⟩
  | @remove k _ _ _ =>
    by_cases hm : m = k
    · rw [hm, Function.update_self] at hx'
      cases hx'
    · rw [Function.update_of_ne hm] at hx'
      exact ⟨x', hx', hprocessing, rfl⟩
  | @finish k _ o _ _ _ =>
    by_cases hm : m = k
    · rw [hm, Function.update_self] at hx'
      cases hx'
      rcases o.status_terminal with ho | ho <;>
        rw [finish_status, ho] at hprocessing <;> cases hprocessing
    · rw [Function.update_of_ne hm] at hx'
      exact ⟨x', hx', hprocessing, rfl⟩
  | @stop k _ _ _ _ =>
    by_cases hm : m = k
    · rw [hm, Function.update_self] at hx'
      cases hx'
      cases hprocessing
    · rw [Function.update_of_ne hm] at hx'
      exact ⟨x', hx', hprocessing, rfl⟩
  | @unfence k row hk =>
    by_cases hm : m = k
    · rw [hm, Function.update_self] at hx'
      cases hx'
      exact ⟨row, hm ▸ hk, hprocessing, rfl⟩
    · rw [Function.update_of_ne hm] at hx'
      exact ⟨x', hx', hprocessing, rfl⟩
  | @report k row _ hk =>
    by_cases hm : m = k
    · rw [hm, Function.update_self] at hx'
      cases hx'
      exact ⟨row, hm ▸ hk, hprocessing, rfl⟩
    · rw [Function.update_of_ne hm] at hx'
      exact ⟨x', hx', hprocessing, rfl⟩

theorem LifeSteps.processing (hs : LifeSteps now new q q') {x' : MessageRow} (hx' : q' m = some x')
    (hprocessing : x'.status = .processing) :
    ∃ x, q m = some x ∧ x.status = .processing ∧ x'.mcpRevision = x.mcpRevision := by
  induction hs generalizing x' with
  | refl => exact ⟨x', hx', hprocessing, rfl⟩
  | tail _ hs ih =>
    obtain ⟨y, hy, hyp, hrev⟩ := hs.processing hx' hprocessing
    obtain ⟨x, hx, hxp, hrev'⟩ := ih hy hyp
    exact ⟨x, hx, hxp, hrev.trans hrev'⟩

/-- What becomes of one message that is already there: it keeps its place and its
claims, and at most ends; only a pending one is removed. -/
inductive Evolves : Option MessageRow → Option MessageRow → Prop where
  | gone : Evolves none none
  | removed {row : MessageRow} : row.status = .pending → Evolves (some row) none
  | kept {row row' : MessageRow} : row'.mcpRevision = row.mcpRevision →
      (row'.status = row.status ∨ row.status.unfinished = true ∧ row'.status.terminal = true) →
      Evolves (some row) (some row')

theorem Evolves.refl (x : Option MessageRow) : Evolves x x := by
  cases x with
  | none => exact .gone
  | some row => exact .kept rfl (.inl rfl)

theorem Evolves.trans {x y z : Option MessageRow} (h : Evolves x y) (h' : Evolves y z) :
    Evolves x z := by
  cases h with
  | gone => exact h'
  | removed hp =>
    cases h'
    exact .removed hp
  | @kept row row' hrev hstatus =>
    cases h' with
    | removed hp =>
      rcases hstatus with hsame | ⟨-, hended⟩
      · exact .removed (hsame ▸ hp)
      · rw [hp] at hended
        cases hended
    | kept hrev' hstatus' =>
      refine .kept (hrev'.trans hrev) ?_
      rcases hstatus' with hsame' | ⟨hopen', hended'⟩
      · rw [hsame']
        exact hstatus
      · rcases hstatus with hsame | ⟨-, hended⟩
        · rw [hsame] at hopen'
          exact .inr ⟨hopen', hended'⟩
        · rw [MessageStatus.terminal, hopen'] at hended
          cases hended

theorem LifeStep.evolves (hs : LifeStep now new q q') (hm : new = some m → q m ≠ none) :
    Evolves (q m) (q' m) := by
  have hat : ∀ (k : MessageId) (row : MessageRow) (y : Option MessageRow), q k = some row →
      Evolves (some row) y → Evolves (q m) (Function.update q k y m) := by
    intro k row y hk hy
    by_cases hmk : m = k
    · rw [hmk, Function.update_self, hk]
      exact hy
    · rw [Function.update_of_ne hmk]
      exact .refl _
  cases hs with
  | @insert row hid hnone =>
    have hne : m ≠ row.id := by
      rintro rfl
      exact hm hid hnone
    rw [Function.update_of_ne hne]
    exact .refl _
  | remove hk hp => exact hat _ _ _ hk (.removed hp)
  | finish o t hk hopen =>
    refine hat _ _ _ hk (.kept rfl (.inr ⟨hopen, ?_⟩))
    rcases o.status_terminal with ho | ho <;> rw [finish_status, ho] <;> rfl
  | stop reason hk hp => exact hat _ _ _ hk (.kept rfl (.inr ⟨by rw [hp]; rfl, rfl⟩))
  | unfence hk => exact hat _ _ _ hk (.kept rfl (.inl rfl))
  | report cost hk => exact hat _ _ _ hk (.kept rfl (.inl rfl))

theorem LifeSteps.evolves (hs : LifeSteps now new q q') (hm : new ≠ some m) :
    Evolves (q m) (q' m) := by
  induction hs with
  | refl => exact .refl _
  | tail _ hs ih => exact ih.trans (hs.evolves fun h => absurd h hm)

/-- A message that has begun stays, under its claim, and does not wait again. -/
theorem LifeSteps.begun (hs : LifeSteps now new q q') {row : MessageRow} (hrow : q m = some row)
    (hbegun : row.status ≠ .pending) :
    ∃ row', q' m = some row' ∧ row'.mcpRevision = row.mcpRevision ∧
      (row'.status = row.status ∨ row'.status.terminal = true) := by
  induction hs with
  | refl => exact ⟨row, hrow, rfl, .inl rfl⟩
  | @tail q₁ q₂ _ hs ih =>
    obtain ⟨row₁, hrow₁, hrev₁, hstatus₁⟩ := ih
    have hbegun₁ : row₁.status ≠ .pending := by
      rcases hstatus₁ with hsame | hterminal
      · rw [hsame]
        exact hbegun
      · intro hp
        rw [hp] at hterminal
        cases hterminal
    have hev := hs.evolves (m := m) fun _ => by simp [hrow₁]
    rw [hrow₁] at hev
    cases hq : q₂ m with
    | none =>
      rw [hq] at hev
      cases hev with
      | removed hp => exact absurd hp hbegun₁
    | some row₂ =>
      rw [hq] at hev
      cases hev with
      | kept hrev₂ hstatus₂ =>
        refine ⟨row₂, rfl, hrev₂.trans hrev₁, ?_⟩
        rcases hstatus₂ with hsame | ⟨-, hterminal⟩
        · rw [hsame]
          exact hstatus₁
        · exact .inr hterminal

end BackgroundAgents.Session

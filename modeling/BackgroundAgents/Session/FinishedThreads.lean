import BackgroundAgents.Session.SlackActivity

/-!
# Finished threads

A refresh looks at its message again before its request, and the completion waits
for the refresh that is pending. A tool call does neither: one that is still being
authorized or signed sends its request when the reply is already posted
(`tool_call_after_completion`).

Where the completion request is signed when no tool call is under way, `Inv`
holds: an open activity request is that of the pending refresh, an open tool call
request is that of a tool call under way, and behind a completion request there is
neither.
-/

namespace BackgroundAgents.Session.SlackActivity

open Programs Transition

/-- No request of the call waits for its answer. -/
def Quiet (requests : List Request) (id : Nat) : Prop :=
  ∀ r ∈ requests, r.call = id → r.endedAt ≠ none

/-- What a completion request leaves behind. -/
structure Completed (processing : Bool) (pending : Option Nat) (toolCalls : List Nat)
    (requests : List Request) (startedAt : Nat) : Prop where
  terminal : processing = false
  drained : pending = none
  toolCalls : toolCalls = []
  ended : ∀ r ∈ requests, r.endpoint.working = true →
    r.startedAt < startedAt ∧ ∃ e, r.endedAt = some e ∧ e ≤ startedAt

structure Inv (s : State) : Prop where
  calls : ∀ r ∈ s.requests, r.call < s.calls
  started : ∀ r ∈ s.requests, r.startedAt ≤ s.now
  ended : ∀ r ∈ s.requests, ∀ e, r.endedAt = some e → e ≤ s.now
  pending : ∀ r ∈ s.requests, r.endpoint = .activity → r.endedAt = none →
    s.slackActivityRefreshes = some r.call
  tools : ∀ r ∈ s.requests, r.endpoint = .toolCall → r.endedAt = none → r.call ∈ s.toolCalls
  disjoint : s.requests.Pairwise fun r r' => r.endpoint = .activity → r'.endpoint = .activity →
    ∃ e, r.endedAt = some e ∧ e ≤ r'.startedAt
  live : ∀ i ∈ s.refreshing, i ∈ s.aborted ∨ s.slackActivityRefreshes = some i
  completed : ∀ c ∈ s.requests, c.endpoint = .complete →
    Completed s.processing s.slackActivityRefreshes s.toolCalls s.requests c.startedAt

/-- What a call may rely on while others run. -/
structure Later (id : Nat) (s t : State) : Prop where
  now : s.now ≤ t.now
  calls : s.calls ≤ t.calls
  processing : s.processing = false → t.processing = false
  pending : s.processing = false →
    t.slackActivityRefreshes = s.slackActivityRefreshes ∨ t.slackActivityRefreshes = none
  toolCalls : id ∈ s.toolCalls → id ∈ t.toolCalls
  refreshing : id ∈ s.refreshing → id ∈ t.refreshing

structure Rely (id : Nat) (s t : State) : Prop where
  later : Later id s t
  quiet : Quiet s.requests id → Quiet t.requests id

def callbackContract (id : Nat) : Contract State where
  inv := Inv
  rely := Rely id
  guar := fun s t => ∀ other, other ≠ id → Rely other s t
  waits := fun _ => True

/-- When the completion has been signed and its request starts, no tool call is under way, but for
those that were denied. -/
def ToolCallsDone (o : CallbackOp) (choice : Choice) (s : State) : Prop :=
  match o, choice with
  | .sign .complete, .done => s.toolCalls = []
  | _, _ => True

def toolCallsDone : Condition State Call CallbackOp Choice where
  call := fun _ _ => True
  answer := fun _ _ o choice s => ToolCallsDone o choice s

variable {setup : Setup} {id other : Nat} {call : Call} {s s₀ t u base : State}
  {endpoint : Endpoint}

theorem inv_initial : Inv State.initial where
  calls := fun _ h => absurd h List.not_mem_nil
  started := fun _ h => absurd h List.not_mem_nil
  ended := fun _ h => absurd h List.not_mem_nil
  pending := fun _ h => absurd h List.not_mem_nil
  tools := fun _ h => absurd h List.not_mem_nil
  disjoint := List.Pairwise.nil
  live := fun _ h => absurd h List.not_mem_nil
  completed := fun _ h => absurd h List.not_mem_nil

theorem Later.refl (id : Nat) (s : State) : Later id s s where
  now := Nat.le_refl _
  calls := Nat.le_refl _
  processing := fun h => h
  pending := fun _ => .inl rfl
  toolCalls := fun h => h
  refreshing := fun h => h

theorem Later.trans (hst : Later id s t) (htu : Later id t u) : Later id s u where
  now := Nat.le_trans hst.now htu.now
  calls := Nat.le_trans hst.calls htu.calls
  processing := fun h => htu.processing (hst.processing h)
  pending := by
    intro h
    rcases htu.pending (hst.processing h) with hsame | hnone
    · rw [hsame]
      exact hst.pending h
    · exact .inr hnone
  toolCalls := fun h => htu.toolCalls (hst.toolCalls h)
  refreshing := fun h => htu.refreshing (hst.refreshing h)

theorem Rely.refl (id : Nat) (s : State) : Rely id s s := ⟨Later.refl id s, fun h => h⟩

theorem Rely.trans (hst : Rely id s t) (htu : Rely id t u) : Rely id s u :=
  ⟨hst.later.trans htu.later, fun h => htu.quiet (hst.quiet h)⟩

/-! ## A step at a time -/

theorem Inv.tick (h : Inv s) : Inv s.tick :=
  { h with
    started := fun r hr => Nat.le_succ_of_le (h.started r hr)
    ended := fun r hr e he => Nat.le_succ_of_le (h.ended r hr e he) }

theorem tick_later (id : Nat) (s : State) : Later id s s.tick :=
  ⟨Nat.le_succ _, Nat.le_refl _, fun h => h, fun _ => .inl rfl, fun h => h, fun h => h⟩

theorem tick_rely (id : Nat) (s : State) : Rely id s s.tick := ⟨tick_later id s, fun h => h⟩

/-- What has to hold for a request of a call to start. -/
def Starts (id : Nat) (s : State) : Endpoint → Prop
  | .toolCall => id ∈ s.toolCalls
  | .activity => s.processing = true ∧ s.slackActivityRefreshes = some id
  | .complete => s.processing = false ∧ s.slackActivityRefreshes = none ∧ s.toolCalls = [] ∧
      ∀ r ∈ s.requests, r.startedAt < s.now
  | .threadClosed => True

/-- No request that has the bot show that the agent is working starts behind a completion. -/
theorem Inv.not_completed (h : Inv s) (hstarts : Starts id s endpoint)
    (hworking : endpoint.working = true) : ∀ c ∈ s.requests, c.endpoint ≠ .complete := by
  intro c hc hcomplete
  have hbehind := h.completed c hc hcomplete
  cases endpoint with
  | toolCall =>
    have hmem : id ∈ s.toolCalls := hstarts
    rw [hbehind.toolCalls] at hmem
    exact List.not_mem_nil hmem
  | activity => exact Bool.false_ne_true (hbehind.terminal.symm.trans hstarts.1)
  | complete => exact Bool.false_ne_true hworking
  | threadClosed => exact Bool.false_ne_true hworking

/-- Where the message is terminal and drained, and no tool call is under way, no working request is
open. -/
theorem Inv.ended_of_drained (h : Inv s) (hdrained : s.slackActivityRefreshes = none)
    (htools : s.toolCalls = []) {r : Request} (hr : r ∈ s.requests)
    (hworking : r.endpoint.working = true) : ∃ e, r.endedAt = some e ∧ e ≤ s.now := by
  cases hended : r.endedAt with
  | some e => exact ⟨e, rfl, h.ended r hr e hended⟩
  | none =>
    cases hendpoint : r.endpoint with
    | toolCall =>
      have hmem := h.tools r hr hendpoint hended
      rw [htools] at hmem
      exact absurd hmem List.not_mem_nil
    | activity =>
      have hpending := h.pending r hr hendpoint hended
      rw [hdrained] at hpending
      cases hpending
    | complete =>
      rw [hendpoint] at hworking
      exact absurd hworking Bool.false_ne_true
    | threadClosed =>
      rw [hendpoint] at hworking
      exact absurd hworking Bool.false_ne_true

theorem mem_start {r : Request} (hr : r ∈ (s.start id endpoint).requests) :
    r ∈ s.requests ∨ r = { call := id, endpoint, startedAt := s.now, endedAt := none } := by
  rcases List.mem_append.mp hr with hold | hnew
  · exact .inl hold
  · exact .inr (List.mem_singleton.mp hnew)

theorem Inv.start (h : Inv s) (hid : id < s.calls) (hquiet : Quiet s.requests id)
    (hstarts : Starts id s endpoint) : Inv (s.start id endpoint) := by
  constructor
  case calls =>
    intro r hr
    rcases mem_start hr with hold | rfl
    · exact h.calls r hold
    · exact hid
  case started =>
    intro r hr
    rcases mem_start hr with hold | rfl
    · exact h.started r hold
    · exact Nat.le_refl _
  case ended =>
    intro r hr e he
    rcases mem_start hr with hold | rfl
    · exact h.ended r hold e he
    · cases he
  case pending =>
    intro r hr hactivity hopen
    rcases mem_start hr with hold | rfl
    · exact h.pending r hold hactivity hopen
    · cases hactivity
      exact hstarts.2
  case tools =>
    intro r hr htool hopen
    rcases mem_start hr with hold | rfl
    · exact h.tools r hold htool hopen
    · cases htool
      exact hstarts
  case disjoint =>
    refine List.pairwise_append.mpr ⟨h.disjoint, List.pairwise_singleton _ _, ?_⟩
    intro r hr r' hr' hactivity hactivity'
    rw [List.mem_singleton.mp hr'] at hactivity' ⊢
    cases hactivity'
    cases hended : r.endedAt with
    | some e => exact ⟨e, rfl, h.ended r hr e hended⟩
    | none =>
      have hsame := (h.pending r hr hactivity hended).symm.trans hstarts.2
      exact absurd hended (hquiet r hr (Option.some.inj hsame))
  case live => exact h.live
  case completed =>
    intro c hc hcomplete
    rcases mem_start hc with hold | rfl
    · have hbehind := h.completed c hold hcomplete
      refine ⟨hbehind.terminal, hbehind.drained, hbehind.toolCalls, ?_⟩
      intro r hr hworking
      rcases mem_start hr with hrold | rfl
      · exact hbehind.ended r hrold hworking
      · exact absurd hcomplete (h.not_completed hstarts hworking c hold)
    · cases hcomplete
      obtain ⟨hterminal, hdrained, htools, hbefore⟩ := hstarts
      refine ⟨hterminal, hdrained, htools, ?_⟩
      intro r hr hworking
      rcases mem_start hr with hrold | rfl
      · exact ⟨hbefore r hrold, h.ended_of_drained hdrained htools hrold hworking⟩
      · exact absurd hworking Bool.false_ne_true

theorem start_later (id other : Nat) (s : State) (endpoint : Endpoint) :
    Later other s (s.start id endpoint) :=
  ⟨Nat.le_refl _, Nat.le_refl _, fun h => h, fun _ => .inl rfl, fun h => h, fun h => h⟩

theorem start_rely (hne : other ≠ id) : Rely other s (s.start id endpoint) := by
  refine ⟨start_later id other s endpoint, ?_⟩
  intro hquiet r hr hcall
  rcases mem_start hr with hold | rfl
  · exact hquiet r hold hcall
  · exact absurd hcall.symm hne

/-! ### The end of a request -/

/-- The request that `finish` has made of an earlier one. -/
structure Finished (id now : Nat) (r r' : Request) : Prop where
  call : r'.call = r.call
  endpoint : r'.endpoint = r.endpoint
  startedAt : r'.startedAt = r.startedAt
  kept : ∀ e, r.endedAt = some e → r'.endedAt = some e
  ended : r'.endedAt = none → r.endedAt = none ∧ r.call ≠ id
  noted : ∀ e, r'.endedAt = some e → r.endedAt = some e ∨ e = now

/-- How `finish` changes a request. -/
def Request.finish (r : Request) (id now : Nat) : Request :=
  if r.call = id ∧ r.endedAt = none then { r with endedAt := some now } else r

theorem finish_finished (r : Request) (id now : Nat) : Finished id now r (r.finish id now) := by
  unfold Request.finish
  split
  next hopen =>
    refine ⟨rfl, rfl, rfl, ?_, fun h => (by cases h), ?_⟩
    · intro e he
      rw [hopen.2] at he
      cases he
    · intro e he
      exact .inr (Option.some.inj he).symm
  next hother =>
    refine ⟨rfl, rfl, rfl, fun _ he => he, ?_, fun _ he => .inl he⟩
    intro hopen
    exact ⟨hopen, fun hcall => hother ⟨hcall, hopen⟩⟩

theorem mem_finish {r' : Request} (hr : r' ∈ (s.finish id).requests) :
    ∃ r ∈ s.requests, Finished id s.now r r' := by
  obtain ⟨r, hmem, rfl⟩ := List.mem_map.mp hr
  exact ⟨r, hmem, finish_finished r id s.now⟩

theorem finish_quiet (s : State) (id : Nat) : Quiet (s.finish id).requests id := by
  intro r' hr' hcall hopen
  obtain ⟨r, _, hr⟩ := mem_finish hr'
  exact (hr.ended hopen).2 (hr.call.symm.trans hcall)

theorem Quiet.finish (h : Quiet s.requests other) : Quiet (s.finish id).requests other := by
  intro r' hr' hcall hopen
  obtain ⟨r, hmem, hr⟩ := mem_finish hr'
  exact h r hmem (hr.call.symm.trans hcall) (hr.ended hopen).1

theorem Inv.finish (h : Inv s) (id : Nat) : Inv (s.finish id) := by
  constructor
  case calls =>
    intro r' hr'
    obtain ⟨r, hmem, hr⟩ := mem_finish hr'
    rw [hr.call]
    exact h.calls r hmem
  case started =>
    intro r' hr'
    obtain ⟨r, hmem, hr⟩ := mem_finish hr'
    rw [hr.startedAt]
    exact h.started r hmem
  case ended =>
    intro r' hr' e he
    obtain ⟨r, hmem, hr⟩ := mem_finish hr'
    rcases hr.noted e he with hold | rfl
    · exact h.ended r hmem e hold
    · exact Nat.le_refl _
  case pending =>
    intro r' hr' hactivity hopen
    obtain ⟨r, hmem, hr⟩ := mem_finish hr'
    rw [hr.call]
    exact h.pending r hmem (hr.endpoint.symm.trans hactivity) (hr.ended hopen).1
  case tools =>
    intro r' hr' htool hopen
    obtain ⟨r, hmem, hr⟩ := mem_finish hr'
    rw [hr.call]
    exact h.tools r hmem (hr.endpoint.symm.trans htool) (hr.ended hopen).1
  case disjoint =>
    refine List.pairwise_map.mpr (h.disjoint.imp ?_)
    intro r r' hapart hactivity hactivity'
    have hr := finish_finished r id s.now
    have hr' := finish_finished r' id s.now
    obtain ⟨e, he, hle⟩ :=
      hapart (hr.endpoint.symm.trans hactivity) (hr'.endpoint.symm.trans hactivity')
    exact ⟨e, hr.kept e he, Nat.le_trans hle (Nat.le_of_eq hr'.startedAt.symm)⟩
  case live => exact h.live
  case completed =>
    intro c' hc' hcomplete
    obtain ⟨c, hmem, hc⟩ := mem_finish hc'
    have hbehind := h.completed c hmem (hc.endpoint.symm.trans hcomplete)
    refine ⟨hbehind.terminal, hbehind.drained, hbehind.toolCalls, ?_⟩
    intro r' hr' hworking
    obtain ⟨r, hrmem, hr⟩ := mem_finish hr'
    rw [hr.endpoint] at hworking
    obtain ⟨hlt, e, he, hle⟩ := hbehind.ended r hrmem hworking
    rw [hr.startedAt, hc.startedAt]
    exact ⟨hlt, e, hr.kept e he, hle⟩

theorem finish_rely (id other : Nat) (s : State) : Rely other s (s.finish id) where
  later := ⟨Nat.le_refl _, Nat.le_refl _, fun h => h, fun _ => .inl rfl, fun h => h, fun h => h⟩
  quiet := Quiet.finish

/-! ### Tool calls and refreshes -/

/-- A call without an open request is struck off the tool calls, and refreshes with it. -/
theorem Inv.strike (h : Inv s) (hquiet : Quiet s.requests id) {refreshing : List Nat}
    (hrefreshing : ∀ i ∈ refreshing, i ∈ s.refreshing) :
    Inv { s with toolCalls := s.toolCalls.filter (· ≠ id), refreshing } :=
  { h with
    tools := by
      intro r hr htool hopen
      have hne : r.call ≠ id := fun hcall => hquiet r hr hcall hopen
      exact List.mem_filter.mpr ⟨h.tools r hr htool hopen, decide_eq_true hne⟩
    live := fun i hi => h.live i (hrefreshing i hi)
    completed := by
      intro c hc hcomplete
      have hbehind := h.completed c hc hcomplete
      refine ⟨hbehind.terminal, hbehind.drained, ?_, hbehind.ended⟩
      rw [hbehind.toolCalls]
      rfl }

theorem strike_rely (hne : other ≠ id) {refreshing : List Nat}
    (hrefreshing : other ∈ s.refreshing → other ∈ refreshing) :
    Rely other s { s with toolCalls := s.toolCalls.filter (· ≠ id), refreshing } where
  later :=
    ⟨Nat.le_refl _, Nat.le_refl _, fun h => h, fun _ => .inl rfl,
      fun h => List.mem_filter.mpr ⟨h, decide_eq_true hne⟩, hrefreshing⟩
  quiet := fun h => h

/-- The pending refresh is forgotten. -/
theorem Inv.forget (h : Inv s) (hquiet : ∀ r ∈ s.requests, r.endpoint = .activity →
    r.endedAt ≠ none) {aborted : List Nat}
    (hlive : ∀ i ∈ s.refreshing, i ∈ aborted) :
    Inv { s with slackActivityRefreshes := none, aborted } :=
  { h with
    pending := fun r hr hactivity hopen => absurd hopen (hquiet r hr hactivity)
    live := fun i hi => .inl (hlive i hi)
    completed := by
      intro c hc hcomplete
      have hbehind := h.completed c hc hcomplete
      exact ⟨hbehind.terminal, rfl, hbehind.toolCalls, hbehind.ended⟩ }

theorem forget_rely {aborted : List Nat} :
    Rely other s { s with slackActivityRefreshes := none, aborted } where
  later := ⟨Nat.le_refl _, Nat.le_refl _, fun h => h, fun _ => .inr rfl, fun h => h, fun h => h⟩
  quiet := fun h => h

/-- Where a call has no open request, no activity request is open while its refresh is pending. -/
theorem Inv.activity_ended (h : Inv s) (hpending : s.slackActivityRefreshes = some id)
    (hquiet : Quiet s.requests id) : ∀ r ∈ s.requests, r.endpoint = .activity →
      r.endedAt ≠ none := by
  intro r hr hactivity hopen
  have hsame := (h.pending r hr hactivity hopen).symm.trans hpending
  exact hquiet r hr (Option.some.inj hsame) hopen

theorem Inv.settleRefresh (h : Inv s) (hquiet : Quiet s.requests id)
    (hgone : id ∉ s.refreshing) : Inv (s.settleRefresh id) := by
  unfold State.settleRefresh
  split
  next hpending =>
    refine h.forget (h.activity_ended hpending hquiet) ?_
    intro i hi
    rcases h.live i hi with haborted | hsame
    · exact haborted
    · have hi' := Option.some.inj (hsame.symm.trans hpending)
      exact absurd (hi' ▸ hi) hgone
  next => exact h

theorem settleRefresh_rely : Rely other s (s.settleRefresh id) := by
  unfold State.settleRefresh
  split
  · exact forget_rely
  · exact Rely.refl other s

theorem Inv.deadline (h : Inv s) (hpending : s.slackActivityRefreshes = some id) :
    Inv (s.deadline id) := by
  have hfinish := h.finish id
  refine hfinish.forget (hfinish.activity_ended hpending (finish_quiet s id)) ?_
  intro i hi
  rcases h.live i hi with haborted | hsame
  · exact List.mem_append_left _ haborted
  · rw [Option.some.inj (hsame.symm.trans hpending)]
    exact List.mem_append_right _ (List.mem_singleton_self _)

theorem deadline_rely : Rely other s (s.deadline id) := (finish_rely id other s).trans forget_rely

/-! ## Turns -/

/-- What a call has kept where none of its own requests is open. -/
structure Reached (id : Nat) (s₀ s : State) : Prop where
  inv : Inv s
  guar : ∀ other, other ≠ id → Rely other s₀ s
  fresh : id < s.calls
  quiet : Quiet s.requests id

abbrev callbackAnswers (setup : Setup) (id : Nat) (call : Call) :
    (o : CallbackOp) → State → Except CallbackError o.Answer → State → Prop :=
  (callbackServer setup).Answers toolCallsDone id call

theorem Reached.ends (h : Reached id s₀ s) : (callbackContract id).Ends s₀ s := ⟨h.inv, h.guar⟩

/-- What the operation that is answered begins with. -/
theorem Reached.resumed (h : Reached id s₀ s) (hrely : Rely id s t) (hinv : Inv t) :
    Reached id t t where
  inv := hinv
  guar := fun other _ => Rely.refl other t
  fresh := Nat.lt_of_lt_of_le h.fresh hrely.later.calls
  quiet := hrely.quiet h.quiet

theorem Reached.tick (h : Reached id s₀ s) : Reached id s₀ s.tick where
  inv := h.inv.tick
  guar := fun other hne => (h.guar other hne).trans (tick_rely other s)
  fresh := h.fresh
  quiet := h.quiet

/-- The times and the calls that were notified are no part of it. -/
theorem Reached.noted (h : Reached id s₀ s) (toolCallTs activityAt : Int)
    (notified : List String) :
    Reached id s₀
      { s with
        lastToolCallCallbackTs := toolCallTs
        lastSlackActivityAt := activityAt
        notifiedCallIds := notified } where
  inv := ⟨h.inv.calls, h.inv.started, h.inv.ended, h.inv.pending, h.inv.tools, h.inv.disjoint,
    h.inv.live, h.inv.completed⟩
  guar := by
    intro other hne
    have hrely := h.guar other hne
    exact ⟨⟨hrely.later.now, hrely.later.calls, hrely.later.processing, hrely.later.pending,
      hrely.later.toolCalls, hrely.later.refreshing⟩, hrely.quiet⟩
  fresh := h.fresh
  quiet := h.quiet

theorem wp_await {o : CallbackOp} {post : State → State → Except CallbackError o.Answer → Prop}
    (h : Reached id s₀ s) (hpost : ∀ t answer u, Reached id t t → Later id s t →
      callbackAnswers setup id call o t answer u → post t u answer) :
    (await o).Wp (callbackContract id) (callbackAnswers setup id call) post s₀ s := by
  refine Program.wp_perform h.ends trivial ?_
  intro t hrely hinv _ answer u hu
  exact hpost t answer u (h.resumed hrely hinv) hrely.later hu

theorem wp_throwIfAborted {post : State → State → Except CallbackError Unit → Prop}
    (hraise : post s₀ s (.error .aborted)) (hlive : id ∉ s.aborted → post s₀ s (.ok ())) :
    (throwIfAborted id).Wp (callbackContract id) (callbackAnswers setup id call) post s₀ s := by
  change ((if s.aborted.contains id then Program.raise .aborted else pure () :
    Callback Unit)).Wp _ _ _ _ _
  split
  · exact hraise
  next hnot => exact hlive fun hmem => hnot (List.contains_iff_mem.mpr hmem)

variable {answer : Except CallbackError Unit}

theorem answers_sign (h : callbackAnswers setup id call (.sign endpoint) t answer u) :
    u = t.tick ∧ (endpoint = .complete → answer = .ok () → t.toolCalls = []) := by
  obtain ⟨choice, hok, hanswer⟩ := h
  cases choice with
  | done =>
    cases hanswer
    refine ⟨rfl, ?_⟩
    intro hcomplete _
    cases hcomplete
    exact hok
  | throws =>
    cases hanswer
    exact ⟨rfl, fun _ hresult => (by cases hresult)⟩
  | scope => cases hanswer
  | response => cases hanswer

theorem answers_sleep (h : callbackAnswers setup id call .sleep t answer u) : u = t.tick := by
  obtain ⟨choice, _, hanswer⟩ := h
  cases choice with
  | done =>
    cases hanswer
    rfl
  | throws => cases hanswer
  | scope => cases hanswer
  | response => cases hanswer

theorem answers_fetch {answer : Except CallbackError Bool}
    (h : callbackAnswers setup id call .fetch t answer u) : u = t.tick.finish id := by
  obtain ⟨choice, _, hanswer⟩ := h
  cases choice with
  | response ok =>
    obtain ⟨_, hanswer⟩ := Option.ite_none_left_eq_some.mp hanswer
    cases hanswer
    rfl
  | throws =>
    cases hanswer
    rfl
  | done => cases hanswer
  | scope => cases hanswer

theorem answers_settled {pending : Nat}
    (h : callbackAnswers setup id call (.refreshSettled pending) t answer u) :
    answer = .ok () ∧ u = t.tick ∧ t.slackActivityRefreshes ≠ some pending := by
  obtain ⟨choice, _, hanswer⟩ := h
  cases choice with
  | done =>
    obtain ⟨hne, hanswer⟩ := Option.ite_none_left_eq_some.mp hanswer
    cases hanswer
    exact ⟨rfl, rfl, hne⟩
  | throws => cases hanswer
  | scope => cases hanswer
  | response => cases hanswer

theorem Reached.denied (h : Reached id s₀ s) (denial : Option SlackPostDenial) :
    Reached id s₀ (s.denied id denial) := by
  unfold State.denied
  split
  · refine ⟨h.inv.strike h.quiet (fun _ hi => hi), ?_, h.fresh, h.quiet⟩
    exact fun other hne => (h.guar other hne).trans (strike_rely hne (fun hi => hi))
  · exact h

theorem answers_yield (h : Reached id t t) (hu : callbackAnswers setup id call .yield t answer u) :
    answer = .ok () ∧ Reached id t u := by
  obtain ⟨choice, _, hanswer⟩ := hu
  cases choice with
  | done =>
    cases hanswer
    exact ⟨rfl, h.tick.denied _⟩
  | throws => cases hanswer
  | scope => cases hanswer
  | response => cases hanswer

theorem answers_readPostScope
    {answer : Except CallbackError (Option SlackPostSession × Option String)} (h : Reached id t t)
    (hu : callbackAnswers setup id call .readPostScope t answer u) :
    Reached id t u ∧
      ((∃ scope, answer = .ok scope ∧ (slackPostGate scope.1 scope.2).isSome) ∨ u = t.tick) := by
  obtain ⟨choice, _, hanswer⟩ := hu
  cases choice with
  | scope session binding =>
    cases hanswer
    refine ⟨h.tick.denied _, ?_⟩
    unfold State.denied
    split
    next hdenial => exact .inl ⟨_, rfl, hdenial⟩
    next => exact .inr rfl
  | throws =>
    cases hanswer
    exact ⟨h.tick, .inr rfl⟩
  | done => cases hanswer
  | response => cases hanswer

theorem wp_fetch (h : Reached id s₀ s) (hstarts : Starts id s endpoint) (hbase : Later id base s) :
    (fetch id endpoint).Wp (callbackContract id) (callbackAnswers setup id call)
      (fun s₀ s _ => Reached id s₀ s ∧ Later id base s) s₀ s := by
  have hends : (callbackContract id).Ends s₀ (s.start id endpoint) :=
    ⟨h.inv.start h.fresh h.quiet hstarts, fun _ hne => (h.guar _ hne).trans (start_rely hne)⟩
  refine Program.wp_perform hends trivial ?_
  intro t hrely hinv _ answer u hu
  cases answers_fetch hu
  have hstart := start_later id id s endpoint
  refine ⟨⟨hinv.tick.finish id, ?_, ?_, finish_quiet _ _⟩, ?_⟩
  · exact fun other _ => (tick_rely other t).trans (finish_rely id other _)
  · exact Nat.lt_of_lt_of_le h.fresh hrely.later.calls
  · exact (hbase.trans hstart).trans
      (hrely.later.trans ((tick_later id t).trans (finish_rely id id _).later))

/-! ### Closing a thread -/

theorem wp_sendSlackThreadClosed (h : Reached id s₀ s) :
    (sendSlackThreadClosed id).Wp (callbackContract id) (callbackAnswers setup id call)
      (fun s₀ s _ => Reached id s₀ s) s₀ s := by
  refine Program.wp_bind (wp_await h ?_)
  intro t answer u ht _ hu
  cases (answers_sign hu).1
  cases answer with
  | error => exact ht.tick
  | ok =>
    refine Program.wp_bind (wp_throwIfAborted ht.tick ?_)
    intro _
    have hstarts : Starts id t.tick .threadClosed := trivial
    exact (wp_fetch ht.tick hstarts (Later.refl id _)).mono (fun _ _ _ hs => hs.1)

theorem wp_deliverWithRetry {send : Callback Bool}
    (hsend : ∀ s₀ s, Reached id s₀ s → send.Wp (callbackContract id)
      (callbackAnswers setup id call) (fun s₀ s _ => Reached id s₀ s) s₀ s) (attempts : Nat) :
    ∀ s₀ s, Reached id s₀ s → (deliverWithRetry send attempts).Wp (callbackContract id)
      (callbackAnswers setup id call) (fun s₀ s _ => Reached id s₀ s) s₀ s := by
  induction attempts with
  | zero => exact fun _ _ h => h
  | succ attempts ih =>
    intro s₀ s h
    refine Program.wp_bind (Program.wp_handle ((hsend s₀ s h).mono ?_))
    intro s₀ s r hs
    have hnext : ∀ delivered : Bool, ((if delivered then pure true
        else if attempts = 0 then pure false
        else do
          await .sleep
          deliverWithRetry send attempts : Callback Bool)).Wp (callbackContract id)
          (callbackAnswers setup id call) (fun s₀ s _ => Reached id s₀ s) s₀ s := by
      intro delivered
      split
      · exact hs
      · split
        · exact hs
        · refine Program.wp_bind (wp_await hs ?_)
          intro t answer u ht _ hu
          cases answers_sleep hu
          cases answer with
          | error => exact ht.tick
          | ok => exact ih _ _ ht.tick
    cases r with
    | error => exact hnext false
    | ok delivered => exact hnext delivered

theorem wp_notifySlackThreadClosed (context : Context) (h : Reached id s₀ s) :
    (notifySlackThreadClosed id context).Wp (callbackContract id)
      (callbackAnswers setup id call) (fun s₀ s _ => Reached id s₀ s) s₀ s := by
  unfold notifySlackThreadClosed
  split
  · refine Program.wp_bind ((wp_deliverWithRetry ?_ 2 s₀ s h).mono ?_)
    · exact fun _ _ hs => wp_sendSlackThreadClosed hs
    · intro s₀ s r hs
      cases r with
      | error => exact hs
      | ok => exact hs
  · exact h

/-! ### Authorization -/

theorem wp_slackPostDenial (context : Context) (h : Reached id s₀ s) :
    (slackPostDenial context).Wp (callbackContract id) (callbackAnswers setup id call)
      (fun s₀ t r => Reached id s₀ t ∧ ((∃ denial, r = .ok (some denial)) ∨ Later id s t))
      s₀ s := by
  unfold slackPostDenial
  split
  · refine Program.wp_bind (wp_await h ?_)
    intro t answer u ht _ hu
    obtain ⟨rfl, hreached⟩ := answers_yield ht hu
    exact ⟨hreached, .inl ⟨_, rfl⟩⟩
  · refine Program.wp_bind (wp_await h ?_)
    intro t answer u ht hlater hu
    obtain ⟨hreached, hcause⟩ := answers_readPostScope ht hu
    rcases hcause with ⟨scope, rfl, hdenial⟩ | rfl
    · obtain ⟨denial, hdenial⟩ := Option.isSome_iff_exists.mp hdenial
      exact ⟨hreached, .inl ⟨denial, congrArg Except.ok hdenial⟩⟩
    · have htick := hlater.trans (tick_later id t)
      cases answer with
      | error => exact ⟨hreached, .inr htick⟩
      | ok => exact ⟨hreached, .inr htick⟩

/-- A denied call goes no further. -/
theorem wp_unlessDenied (context : Context) {denial : Option SlackPostDenial}
    (h : Reached id s₀ s)
    (hcause : (∃ d, (.ok denial : Except CallbackError _) = .ok (some d)) ∨ Later id base s) :
    ((if denial.isSome then do
        notifySlackThreadClosed id context
        return false
      else return true : Callback Bool)).Wp (callbackContract id) (callbackAnswers setup id call)
      (fun s₀ t r => Reached id s₀ t ∧ (r = .ok true → Later id base t)) s₀ s := by
  split
  · refine Program.wp_bind ((wp_notifySlackThreadClosed context h).mono ?_)
    intro s₀ t r ht
    cases r with
    | error => exact ⟨ht, fun he => (by cases he)⟩
    | ok => exact ⟨ht, fun he => (by cases he)⟩
  next hallowed =>
    refine ⟨h, ?_⟩
    intro _
    rcases hcause with ⟨denial, hdenial⟩ | hlater
    · cases hdenial
      exact absurd rfl hallowed
    · exact hlater

/-- What is left of an authorization where it was caught. -/
theorem wp_caught {authorize : Callback Bool}
    (h : authorize.Wp (callbackContract id) (callbackAnswers setup id call)
      (fun s₀ t r => Reached id s₀ t ∧ (r = .ok true → Later id base t)) s₀ s) :
    (Program.handle authorize fun _ => return false).Wp (callbackContract id)
      (callbackAnswers setup id call)
      (fun s₀ t r => Reached id s₀ t ∧ (r = .ok true → Later id base t)) s₀ s := by
  refine Program.wp_handle (h.mono ?_)
  intro s₀ t r ht
  cases r with
  | error => exact ⟨ht.1, fun he => (by cases he)⟩
  | ok => exact ht

theorem wp_authorizeToolCall (context : Context) (h : Reached id s₀ s) :
    (authorizeToolCall id context).Wp (callbackContract id) (callbackAnswers setup id call)
      (fun s₀ t r => Reached id s₀ t ∧ (r = .ok true → Later id s t)) s₀ s := by
  refine wp_caught (Program.wp_bind ((wp_slackPostDenial context h).mono ?_))
  intro s₀ t r ht
  cases r with
  | error => exact ⟨ht.1, fun he => (by cases he)⟩
  | ok denial => exact wp_unlessDenied context ht.1 ht.2

theorem wp_authorizeRefresh (context : Context) (h : Reached id s₀ s) :
    (authorizeRefresh id context).Wp (callbackContract id) (callbackAnswers setup id call)
      (fun s₀ t r => Reached id s₀ t ∧ (r = .ok true → Later id s t)) s₀ s := by
  refine wp_caught (Program.wp_bind ((wp_slackPostDenial context h).mono ?_))
  intro s₀ t r ht
  cases r with
  | error => exact ⟨ht.1, fun he => (by cases he)⟩
  | ok denial =>
    refine Program.wp_bind (wp_throwIfAborted ?_ ?_)
    · exact ⟨ht.1, fun he => (by cases he)⟩
    · exact fun _ => wp_unlessDenied context ht.1 ht.2

/-! ### The three senders -/

theorem wp_sendSlackActivityRefresh (now : Int) (h : Reached id s₀ s) (hmem : id ∈ s.refreshing) :
    (sendSlackActivityRefresh setup id now).Wp (callbackContract id)
      (callbackAnswers setup id call) (fun s₀ s _ => Reached id s₀ s) s₀ s := by
  unfold sendSlackActivityRefresh
  refine Program.wp_bind ?_
  change Program.Wp _ _ _ (ite _ _ _) _ _
  split
  · exact h
  split
  next context _ =>
    split
    next =>
      refine Program.wp_bind ((wp_authorizeRefresh context h).mono ?_)
      intro s₀ t r ht
      cases r with
      | error => exact ht.1
      | ok authorized =>
        cases authorized with
        | false => exact ht.1
        | true =>
          have hrefreshing := (ht.2 rfl).refreshing hmem
          refine Program.wp_bind (wp_await ht.1 ?_)
          intro u answer v hu hlater hv
          cases (answers_sign hv).1
          cases answer with
          | error => exact hu.tick
          | ok =>
            refine Program.wp_bind (wp_throwIfAborted hu.tick ?_)
            intro hlive
            refine Program.wp_bind ?_
            change Program.Wp _ _ _ (ite _ _ _) _ _
            split
            next hprocessing =>
              have hpending : u.slackActivityRefreshes = some id :=
                (hu.inv.live id (hlater.refreshing hrefreshing)).resolve_left hlive
              have hstarts : Starts id u.tick .activity := ⟨hprocessing, hpending⟩
              refine Program.wp_handle (Program.wp_bind
                ((wp_fetch hu.tick hstarts (Later.refl id _)).mono ?_))
              intro s₀ t r ht
              cases r with
              | error => exact ht.1
              | ok ok =>
                refine Program.wp_bind (wp_throwIfAborted ht.1 ?_)
                intro _
                dsimp only
                split
                · exact ht.1.noted _ _ _
                · exact ht.1
            next => exact hu.tick
    next => exact h
  next => exact h

theorem wp_notifyToolCall (callId : String) (now : Int) (h : Reached id s₀ s)
    (hmem : id ∈ s.toolCalls) :
    (notifyToolCall setup id callId now).Wp (callbackContract id)
      (callbackAnswers setup id call) (fun s₀ s _ => Reached id s₀ s) s₀ s := by
  unfold notifyToolCall
  refine Program.wp_bind ?_
  change Program.Wp _ _ _ (ite _ _ _) _ _
  split
  · exact h
  split
  · exact h
  split
  next parsed _ _ =>
    cases parsed with
    | none => exact h
    | some context =>
      refine Program.wp_bind ?_
      change Program.Wp _ _ _ (ite _ _ _) _ _
      split
      · exact h
      · have hnoted := h.noted now s.lastSlackActivityAt s.notifiedCallIds
        refine Program.wp_bind (Program.wp_bind ((wp_authorizeToolCall context hnoted).mono ?_))
        intro s₀ t r ht
        cases r with
        | error => exact ht.1
        | ok authorized =>
          cases authorized with
          | false => exact ht.1
          | true =>
            have htool : id ∈ t.toolCalls := (ht.2 rfl).toolCalls hmem
            refine Program.wp_bind (wp_await ht.1 ?_)
            intro u answer v hu hlater hv
            cases (answers_sign hv).1
            cases answer with
            | error => exact hu.tick
            | ok =>
              have hstarts : Starts id u.tick .toolCall := hlater.toolCalls htool
              refine Program.wp_handle (Program.wp_bind
                ((wp_fetch hu.tick hstarts (Later.refl id _)).mono ?_))
              intro s₀ t r ht
              cases r with
              | error => exact ht.1
              | ok ok =>
                dsimp only
                split
                · change Reached _ _ _
                  split
                  · exact ht.1.noted _ _ _
                  · exact ht.1.noted _ _ _
                · exact ht.1
  next => exact h

/-- The message is terminal and no refresh of it is pending. -/
def Drained (s : State) : Prop := s.processing = false ∧ s.slackActivityRefreshes = none

theorem Drained.later (h : Drained s) (hlater : Later id s t) : Drained t := by
  refine ⟨hlater.processing h.1, ?_⟩
  rcases hlater.pending h.1 with hsame | hnone
  · exact hsame.trans h.2
  · exact hnone

theorem wp_sendComplete (h : Reached id s₀ s) (hdrained : Drained s) :
    (sendComplete id).Wp (callbackContract id) (callbackAnswers setup id call)
      (fun s₀ s _ => Reached id s₀ s ∧ Drained s) s₀ s := by
  refine Program.wp_bind (wp_await h ?_)
  intro t answer u ht hlater hu
  obtain ⟨rfl, htools⟩ := answers_sign hu
  have hdrained := hdrained.later hlater
  cases answer with
  | error => exact ⟨ht.tick, hdrained⟩
  | ok =>
    have hstarts : Starts id t.tick .complete :=
      ⟨hdrained.1, hdrained.2, htools rfl rfl,
        fun r hr => Nat.lt_succ_of_le (ht.inv.started r hr)⟩
    refine (wp_fetch ht.tick hstarts (Later.refl id _)).mono ?_
    intro s₀ s r hs
    have hticked : Drained t.tick := hdrained
    exact ⟨hs.1, hticked.later hs.2⟩

theorem wp_sendDenied (context : Context) (h : Reached id s₀ s) :
    (sendDenied id context).Wp (callbackContract id) (callbackAnswers setup id call)
      (fun s₀ s _ => Reached id s₀ s) s₀ s := by
  unfold sendDenied
  split
  · exact wp_sendSlackThreadClosed h
  · exact h

theorem wp_deliverCompletion (context : Context) (attempts : Nat) :
    ∀ rejectReason s₀ s, Reached id s₀ s → (rejectReason = none → Drained s) →
      (deliverCompletion id context attempts rejectReason).Wp (callbackContract id)
        (callbackAnswers setup id call) (fun s₀ s _ => Reached id s₀ s) s₀ s := by
  induction attempts with
  | zero => exact fun _ _ _ h _ => h
  | succ attempts ih =>
    -- what follows an attempt, by what was read of the reason
    have hagain : ∀ (read : Option (Option SlackPostDenial)) (delivered : Bool) s₀ s,
        Reached id s₀ s → (read.join = none → Drained s) →
          ((if delivered then pure ()
            else if attempts = 0 then pure ()
            else do
              await .sleep
              deliverCompletion id context attempts read.join : Callback Unit)).Wp
            (callbackContract id) (callbackAnswers setup id call)
            (fun s₀ s _ => Reached id s₀ s) s₀ s := by
      intro read delivered s₀ s h hdrained
      split
      · exact h
      · split
        · exact h
        · refine Program.wp_bind (wp_await h ?_)
          intro t answer u ht hlater hu
          cases answers_sleep hu
          cases answer with
          | error => exact ht.tick
          | ok =>
            refine ih _ _ _ ht.tick ?_
            intro hnone
            exact (hdrained hnone).later (hlater.trans (tick_later id t))
    -- an attempt that found a reason
    have hdenied : ∀ reason s₀ s, Reached id s₀ s →
        ((do
          let delivered ← Program.handle (sendDenied id context) fun _ => return false
          if delivered then pure ()
          else if attempts = 0 then pure ()
          else do
            await .sleep
            deliverCompletion id context attempts (some reason) : Callback Unit)).Wp
          (callbackContract id) (callbackAnswers setup id call)
          (fun s₀ s _ => Reached id s₀ s) s₀ s := by
      intro reason s₀ s h
      refine Program.wp_bind (Program.wp_handle ((wp_sendDenied context h).mono ?_))
      intro s₀ s r hs
      have hreason : (some (some reason) : Option (Option SlackPostDenial)).join = none →
          Drained s := fun he => (by cases he)
      cases r with
      | error => exact hagain (some (some reason)) false s₀ s hs hreason
      | ok delivered => exact hagain (some (some reason)) delivered s₀ s hs hreason
    intro rejectReason s₀ s h hdrained
    cases rejectReason with
    | some reason => exact hdenied reason s₀ s h
    | none =>
      have hdrained := hdrained rfl
      refine Program.wp_bind (Program.wp_handle (Program.wp_bind
        ((wp_slackPostDenial context h).mono ?_)))
      intro s₀ t r ht
      obtain ⟨ht, hcause⟩ := ht
      cases r with
      | error =>
        rcases hcause with ⟨_, he⟩ | hlater
        · cases he
        · exact hagain none false s₀ t ht (fun _ => hdrained.later hlater)
      | ok denial =>
        cases denial with
        | some reason => exact hdenied reason s₀ t ht
        | none =>
          have hdrained : Drained t := by
            rcases hcause with ⟨_, he⟩ | hlater
            · cases he
            · exact hdrained.later hlater
          refine Program.wp_bind (Program.wp_handle ((wp_sendComplete ht hdrained).mono ?_))
          intro s₀ s r hs
          cases r with
          | error => exact hagain (some none) false s₀ s hs.1 (fun _ => hs.2)
          | ok delivered => exact hagain (some none) delivered s₀ s hs.1 (fun _ => hs.2)

theorem wp_notifyComplete (h : Reached id s₀ s) (hterminal : s.processing = false) :
    (notifyComplete setup id).Wp (callbackContract id) (callbackAnswers setup id call)
      (fun s₀ s _ => Reached id s₀ s) s₀ s := by
  unfold notifyComplete
  split
  next context _ =>
    have hdeliver : ∀ s₀ s, Reached id s₀ s → Drained s →
        ((if setup.secret && setup.binding then deliverCompletion id context 2 none
          else return () : Callback Unit)).Wp (callbackContract id)
          (callbackAnswers setup id call) (fun s₀ s _ => Reached id s₀ s) s₀ s := by
      intro s₀ s hs hdrained
      split
      · exact wp_deliverCompletion context 2 none s₀ s hs (fun _ => hdrained)
      · exact hs
    refine Program.wp_bind ?_
    dsimp only [Program.gets, Program.Wp]
    split
    next pending hpending =>
      refine Program.wp_bind (wp_await h ?_)
      intro t answer u ht hlater hu
      obtain ⟨rfl, rfl, hne⟩ := answers_settled hu
      refine hdeliver t t.tick ht.tick ⟨hlater.processing hterminal, ?_⟩
      rcases hlater.pending hterminal with hsame | hnone
      · exact absurd (hsame.trans hpending) hne
      · exact hnone
    next hpending => exact hdeliver s₀ s h ⟨hterminal, hpending⟩
  next => exact h

/-! ## Calls -/

theorem left_ends {r : Except CallbackError Unit} (h : Reached id s₀ s) :
    (callbackContract id).Ends s₀ ((callbackServer setup).leave id call r s) := by
  refine ⟨h.inv.strike h.quiet (fun i hi => (List.mem_filter.mp hi).1), ?_⟩
  intro other hne
  exact (h.guar other hne).trans
    (strike_rely hne fun hi => List.mem_filter.mpr ⟨hi, decide_eq_true hne⟩)

/-- A refresh that was pending is forgotten as it ends. -/
theorem settled_ends {r : Except CallbackError Unit} (h : Reached id s₀ s) :
    (callbackContract id).Ends s₀
      ((callbackServer setup).leave id call r (s.settleRefresh id)) := by
  have hleft : (callbackContract id).Ends s₀ ((callbackServer setup).leave id call r s) :=
    left_ends h
  have hsettled : (callbackServer setup).leave id call r (s.settleRefresh id) =
      ((callbackServer setup).leave id call r s).settleRefresh id := by
    unfold State.settleRefresh
    split
    next hpending => exact (if_pos hpending).symm
    next hpending => exact (if_neg hpending).symm
  rw [hsettled]
  refine ⟨hleft.inv.settleRefresh h.quiet ?_, ?_⟩
  · intro hmem
    exact of_decide_eq_true (List.mem_filter.mp hmem).2 rfl
  · exact fun other hne => (hleft.guar other hne).trans settleRefresh_rely

/-- A call that is made has no request yet. -/
theorem quiet_of_fresh (h : Inv s) (hfresh : s.calls ≤ id) : Quiet s.requests id := by
  intro r hr hcall
  exact absurd (hcall ▸ h.calls r hr) (Nat.not_lt.mpr hfresh)

theorem made_rely (hfresh : s.calls ≤ id) : Rely other s { s.tick with calls := id + 1 } where
  later :=
    ⟨Nat.le_succ _, Nat.le_succ_of_le hfresh, fun h => h, fun _ => .inl rfl, fun h => h,
      fun h => h⟩
  quiet := fun h => h

theorem Inv.made (h : Inv s) (hfresh : s.calls ≤ id) : Inv { s.tick with calls := id + 1 } :=
  { h with
    calls := fun r hr => Nat.lt_succ_of_le (Nat.le_trans (Nat.le_of_lt (h.calls r hr)) hfresh)
    started := h.tick.started
    ended := h.tick.ended }

theorem made_reached (h : Inv s) (hfresh : s.calls ≤ id) :
    Reached id s { s.tick with calls := id + 1 } where
  inv := h.made hfresh
  guar := fun _ _ => made_rely hfresh
  fresh := Nat.lt_succ_self id
  quiet := by
    have hquiet : Quiet s.requests id := quiet_of_fresh h hfresh
    exact hquiet

/-- Behind a completion the message is no longer processing. -/
theorem Inv.processing_not_completed (h : Inv s) (hprocessing : s.processing = true) :
    ∀ c ∈ s.requests, c.endpoint ≠ .complete := by
  intro c hc hcomplete
  exact Bool.false_ne_true ((h.completed c hc hcomplete).terminal.symm.trans hprocessing)

/-- A tool call comes under way. -/
theorem Reached.underWay (h : Reached id s₀ s) (hprocessing : s.processing = true) :
    Reached id s₀ { s with toolCalls := s.toolCalls ++ [id] } where
  inv := {
    calls := h.inv.calls
    started := h.inv.started
    ended := h.inv.ended
    pending := h.inv.pending
    tools := fun r hr htool hopen => List.mem_append_left _ (h.inv.tools r hr htool hopen)
    disjoint := h.inv.disjoint
    live := h.inv.live
    completed := fun c hc hcomplete =>
      absurd hcomplete (h.inv.processing_not_completed hprocessing c hc) }
  guar := by
    intro other hne
    have hrely := h.guar other hne
    exact ⟨⟨hrely.later.now, hrely.later.calls, hrely.later.processing, hrely.later.pending,
      fun hmem => List.mem_append_left _ (hrely.later.toolCalls hmem), hrely.later.refreshing⟩,
      hrely.quiet⟩
  fresh := h.fresh
  quiet := h.quiet

/-- A refresh comes under way and is the pending one. -/
theorem Reached.registered (h : Reached id s₀ s) (hprocessing : s.processing = true)
    (hnone : s.slackActivityRefreshes = none) :
    Reached id s₀
      { s with
        refreshing := s.refreshing ++ [id]
        slackActivityRefreshes := some id } where
  inv := {
    calls := h.inv.calls
    started := h.inv.started
    ended := h.inv.ended
    pending := by
      intro r hr hactivity hopen
      have hpending := h.inv.pending r hr hactivity hopen
      rw [hnone] at hpending
      cases hpending
    tools := h.inv.tools
    disjoint := h.inv.disjoint
    live := by
      intro i hi
      rcases List.mem_append.mp hi with hold | hnew
      · rcases h.inv.live i hold with haborted | hpending
        · exact .inl haborted
        · rw [hnone] at hpending
          cases hpending
      · exact .inr (congrArg some (List.mem_singleton.mp hnew).symm)
    completed := fun c hc hcomplete =>
      absurd hcomplete (h.inv.processing_not_completed hprocessing c hc) }
  guar := by
    intro other hne
    have hrely := h.guar other hne
    refine ⟨⟨hrely.later.now, hrely.later.calls, hrely.later.processing, ?_,
      hrely.later.toolCalls, fun hmem => List.mem_append_left _ (hrely.later.refreshing hmem)⟩,
      hrely.quiet⟩
    intro hterminal
    exact absurd ((hrely.later.processing hterminal).symm.trans hprocessing) Bool.false_ne_true
  fresh := h.fresh
  quiet := h.quiet

theorem Reached.finished (h : Reached id s₀ s) :
    Reached id s₀ { s with processing := false } where
  inv := {
    calls := h.inv.calls
    started := h.inv.started
    ended := h.inv.ended
    pending := h.inv.pending
    tools := h.inv.tools
    disjoint := h.inv.disjoint
    live := h.inv.live
    completed := by
      intro c hc hcomplete
      have hbehind := h.inv.completed c hc hcomplete
      exact ⟨rfl, hbehind.drained, hbehind.toolCalls, hbehind.ended⟩ }
  guar := by
    intro other hne
    have hrely := h.guar other hne
    exact ⟨⟨hrely.later.now, hrely.later.calls, fun _ => rfl, hrely.later.pending,
      hrely.later.toolCalls, hrely.later.refreshing⟩, hrely.quiet⟩
  fresh := h.fresh
  quiet := h.quiet

theorem Reached.completing (h : Reached id s₀ s) : Reached id s₀ { s with completing := true } where
  inv := ⟨h.inv.calls, h.inv.started, h.inv.ended, h.inv.pending, h.inv.tools, h.inv.disjoint,
    h.inv.live, h.inv.completed⟩
  guar := by
    intro other hne
    have hrely := h.guar other hne
    exact ⟨⟨hrely.later.now, hrely.later.calls, hrely.later.processing, hrely.later.pending,
      hrely.later.toolCalls, hrely.later.refreshing⟩, hrely.quiet⟩
  fresh := h.fresh
  quiet := h.quiet

theorem Reached.deadline {pending : Nat} (h : Reached id s₀ s)
    (hpending : s.slackActivityRefreshes = some pending) : Reached id s₀ (s.deadline pending) where
  inv := h.inv.deadline hpending
  guar := fun other hne => (h.guar other hne).trans deadline_rely
  fresh := h.fresh
  quiet := h.quiet.finish

/-- A refresh that finds none pending. -/
theorem wp_refresh (now : Int) (h : Reached id s₀ s) (hprocessing : s.processing = true)
    (hnone : s.slackActivityRefreshes = none) :
    (refreshSlackActivity setup id now).Wp (callbackContract id) (callbackAnswers setup id call)
      ((callbackServer setup).Left callbackContract id call) s₀
      { s with refreshing := s.refreshing ++ [id] } := by
  refine Program.wp_bind ?_
  dsimp only [Program.gets, Program.Wp]
  split
  next hpending =>
    rw [hnone] at hpending
    cases hpending
  next =>
    refine Program.wp_bind (Program.wp_bind (Program.wp_handle ?_))
    refine (wp_sendSlackActivityRefresh now (h.registered hprocessing hnone) ?_).mono ?_
    · exact List.mem_append_right _ (List.mem_singleton_self _)
    · intro s₀ s r hs
      cases r with
      | error => exact settled_ends hs
      | ok => exact settled_ends hs

theorem callback_sound :
    (callbackServer setup).Sound toolCallsDone callbackContract Inv where
  inv_eq := fun _ => rfl
  refl := Rely.refl
  trans := fun _ _ _ _ => Rely.trans
  compatible := fun _ j _ _ hne hguar => hguar j (Ne.symm hne)
  stable := fun _ _ _ _ _ => trivial
  enters := by
    intro id call s t hinv _ henter
    have hleft : ∀ s₀ u r, Reached id s₀ u →
        (callbackServer setup).Left callbackContract id call s₀ u r :=
      fun _ _ _ hs => left_ends hs
    obtain ⟨hfresh, henter⟩ := Option.ite_none_right_eq_some.mp henter
    have hmade := made_reached hinv hfresh
    cases call with
    | toolCall callId now =>
      obtain ⟨hprocessing, henter⟩ := Option.ite_none_right_eq_some.mp henter
      cases henter
      refine (wp_notifyToolCall callId now (hmade.underWay hprocessing) ?_).mono hleft
      exact List.mem_append_right _ (List.mem_singleton_self _)
    | refresh now =>
      obtain ⟨hprocessing, henter⟩ := Option.ite_none_right_eq_some.mp henter
      cases henter
      split
      next hpending =>
        -- the body reads the pending refresh and returns
        refine Program.wp_bind ?_
        dsimp only [Program.gets, Program.Wp]
        rw [if_pos hpending]
        exact hleft _ _ _ hmade
      next hpending =>
        exact wp_refresh now hmade hprocessing (Option.not_isSome_iff_eq_none.mp hpending)
    | deadline pending =>
      obtain ⟨hpending, henter⟩ := Option.ite_none_right_eq_some.mp henter
      cases henter
      exact hleft _ _ _ (hmade.deadline hpending)
    | finish =>
      cases henter
      exact hleft _ _ _ hmade.finished
    | complete =>
      obtain ⟨hcompletes, henter⟩ := Option.ite_none_right_eq_some.mp henter
      cases henter
      have hterminal := (Bool.and_eq_true_iff.mp hcompletes).1
      exact (wp_notifyComplete hmade.completing ((Bool.not_eq_true' _).mp hterminal)).mono hleft

/-- Two refreshes that are under way and not aborted are one. -/
theorem Inv.live_unique (h : Inv s) {i j : Nat} (hi : i ∈ s.refreshing) (hj : j ∈ s.refreshing)
    (hilive : i ∉ s.aborted) (hjlive : j ∉ s.aborted) : i = j := by
  have hipending := (h.live i hi).resolve_left hilive
  have hjpending := (h.live j hj).resolve_left hjlive
  exact Option.some.inj (hipending.symm.trans hjpending)

/-- **Nothing re-asserts activity on a finished thread**, in the runs in which no tool call is under
way when the completion request starts: every tool call and every activity request was started
before a completion request and had ended when that started. The activity requests follow one
another, and at most one refresh is under way whose signal is not aborted. -/
theorem nothing_after_completion
    (pool : Pool State Call CallbackOp CallbackOp.Answer CallbackError Unit)
    (h : (callbackServer setup).system.Reachable toolCallsDone.Allows
      (Server.idle State.initial) pool) :
    (∀ c ∈ pool.shared.requests, c.endpoint = .complete →
      ∀ r ∈ pool.shared.requests, r.endpoint = .toolCall ∨ r.endpoint = .activity →
        r.startedAt < c.startedAt ∧ ∃ e, r.endedAt = some e ∧ e ≤ c.startedAt) ∧
      (pool.shared.requests.Pairwise fun r r' => r.endpoint = .activity →
        r'.endpoint = .activity → ∃ e, r.endedAt = some e ∧ e ≤ r'.startedAt) ∧
      ∀ i ∈ pool.shared.refreshing, ∀ j ∈ pool.shared.refreshing,
        i ∉ pool.shared.aborted → j ∉ pool.shared.aborted → i = j := by
  have hinv : Inv pool.shared := (callback_sound.reachable inv_initial h).inv
  refine ⟨?_, hinv.disjoint, fun i hi j hj => hinv.live_unique hi hj⟩
  intro c hc hcomplete r hr hendpoint
  refine (hinv.completed c hc hcomplete).ended r hr ?_
  rcases hendpoint with htool | hactivity
  · exact Bool.or_eq_true_iff.mpr (.inl (decide_eq_true htool))
  · exact Bool.or_eq_true_iff.mpr (.inr (decide_eq_true hactivity))

/-- A message of a thread that may be posted to. -/
def threadSetup : Setup where
  callback_context := some (some { channel := some "C1", threadTs := some "1.0" })
  secret := true
  binding := true

def postScope : Choice :=
  .scope (some { ownerTeamId := some "T1", visibility := "shared" }) (some "T1")

/-- A tool call and a refresh are sent and answered, and the message is completed. -/
def finishedThread : List (Act Call Choice) :=
  [.call (.toolCall "call-1" 5000), .resume 0 postScope, .resume 0 .done,
    .resume 0 (.response true), .call (.refresh 70000), .resume 0 postScope, .resume 0 .done,
    .call .finish, .call .complete, .resume 0 (.response true), .resume 0 .done,
    .resume 0 postScope, .resume 0 .done]

instance (o : CallbackOp) (choice : Choice) (s : State) : Decidable (ToolCallsDone o choice s) := by
  unfold ToolCallsDone
  split <;> infer_instance

instance (pool : Pool State Call CallbackOp CallbackOp.Answer CallbackError Unit)
    (act : Act Call Choice) : Decidable (toolCallsDone.Allows pool act) := by
  unfold Condition.Allows toolCallsDone
  split <;> infer_instance

theorem nothing_after_completion_once : ∃ s : State,
    (∃ c ∈ s.requests, c.endpoint = .complete) ∧ (∃ r ∈ s.requests, r.endpoint = .toolCall) ∧
      (∃ r ∈ s.requests, r.endpoint = .activity) ∧
        ∀ c ∈ s.requests, c.endpoint = .complete → ∀ r ∈ s.requests,
          r.endpoint = .toolCall ∨ r.endpoint = .activity →
            r.startedAt < c.startedAt ∧ ∃ e, r.endedAt = some e ∧ e ≤ c.startedAt := by
  have hrun : ((callbackServer threadSetup).system.run toolCallsDone.Allows
      (Server.idle State.initial) finishedThread).any
      (fun pool =>
        (∃ c ∈ pool.shared.requests, c.endpoint = .complete) ∧
        (∃ r ∈ pool.shared.requests, r.endpoint = .toolCall) ∧
        ∃ r ∈ pool.shared.requests, r.endpoint = .activity) = true := by
    decide +kernel
  obtain ⟨pool, hpool, hfacts⟩ := (Option.any_eq_true _ _).mp hrun
  obtain ⟨hcomplete, htool, hactivity⟩ := of_decide_eq_true hfacts
  have hreached := nothing_after_completion pool (System.run_reachable hpool)
  exact ⟨pool.shared, hcomplete, htool, hactivity, hreached.1⟩

/-- A tool call is being signed when the message ends; its request is sent behind that of the
completion. -/
def lateToolCall : List (Act Call Choice) :=
  [.call (.toolCall "call-1" 5000), .resume 0 postScope, .call .finish, .call .complete,
    .resume 1 postScope, .resume 1 .done, .resume 0 .done]

theorem tool_call_after_completion :
    ∃ pool, (callbackServer threadSetup).system.Reachable anyStep (Server.idle State.initial) pool ∧
      ∃ c ∈ pool.shared.requests, c.endpoint = .complete ∧
        ∃ r ∈ pool.shared.requests, r.endpoint = .toolCall ∧ c.startedAt < r.startedAt := by
  have hrun : ((callbackServer threadSetup).system.run anyStep (Server.idle State.initial)
      lateToolCall).any
      (fun pool => ∃ c ∈ pool.shared.requests, c.endpoint = .complete ∧
        ∃ r ∈ pool.shared.requests, r.endpoint = .toolCall ∧ c.startedAt < r.startedAt) = true := by
    decide +kernel
  obtain ⟨pool, hpool, hfacts⟩ := (Option.any_eq_true _ _).mp hrun
  exact ⟨pool, System.run_reachable hpool, of_decide_eq_true hfacts⟩

end BackgroundAgents.Session.SlackActivity

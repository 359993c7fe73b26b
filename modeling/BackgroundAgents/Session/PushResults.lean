import BackgroundAgents.Lib.Table
import BackgroundAgents.Session.SandboxPush

/-!
# A push result answers its push

The table of resolvers knows a push by its repository and branch, and an event
may arrive when the call that sent its command has long returned. A later push
of the same branch is then answered by the event of the one before
(`stale_event_answers`).

Where no event arrives while another push waits under the branch it carries,
`Inv` holds: what settled a promise is the event of its own command, a timer, or
a command that was not delivered. Without that condition, too, every call in
progress has its resolver and its timer or is settled already.
-/

namespace BackgroundAgents.Session.SandboxPush

open Programs Transition

variable {toLowerCase strip : String → String}

def PushResult.ofSettled : Except String Unit → PushResult
  | .ok _ => .success
  | .error text => .failure (.pushError text)

/-- The result a promise was settled with is that of the event that settled it. -/
structure Answered (causes : List (Nat × Cause)) (call : Nat) (result : Except String Unit) :
    Prop where
  same : ∀ e, (call, Cause.event e) ∈ causes → e.event.outcome.result = result
  event : result = .ok () → ∃ e, (call, Cause.event e) ∈ causes

/-- A call that has returned was refused, or returned what its promise was settled with. -/
def Justified (commands : List Command) (causes : List (Nat × Cause)) (r : Returned) : Prop :=
  ((∀ command ∈ commands, command.call ≠ r.call) ∧ ∀ cause, (r.call, cause) ∉ causes) ∨
    ∃ result, r.result = .ofSettled result ∧ Answered causes r.call result

structure Inv (toLowerCase : String → String) (s : State) : Prop where
  waiting : ∀ entry ∈ s.pendingPushResolvers,
    entry.2 ∈ s.unsettled ∧ (entry.2, entry.1) ∈ s.timers
  resolvers : ∀ call ∈ s.unsettled, ∃ key, (key, call) ∈ s.pendingPushResolvers
  sent : ∀ command ∈ s.commands, command.call ∈ s.unsettled →
    (command.spec.key toLowerCase, command.call) ∈ s.pendingPushResolvers
  keys : (s.pendingPushResolvers.map Prod.fst).Nodup
  holders : (s.pendingPushResolvers.map Prod.snd).Nodup
  timers : ∀ timer ∈ s.timers, (timer.2, timer.1) ∈ s.pendingPushResolvers ∨
    ∃ p ∈ s.settled, p.call = timer.1
  apart : ∀ p ∈ s.settled, p.call ∉ s.unsettled
  answered : ∀ p ∈ s.settled, Answered s.causes p.call p.result
  unanswered : ∀ call ∈ s.unsettled, ∀ cause, (call, cause) ∉ s.causes
  causes : ∀ call e, (call, Cause.event e) ∈ s.causes → e ∈ s.emitted ∧ e.command = call
  left : ∀ r ∈ s.returned, r.call ∉ s.unsettled
  returned : ∀ r ∈ s.returned, Justified s.commands s.causes r
  numbered : (∀ call ∈ s.unsettled, call < s.calls) ∧ (∀ p ∈ s.settled, p.call < s.calls) ∧
    (∀ cause ∈ s.causes, cause.1 < s.calls) ∧ (∀ command ∈ s.commands, command.call < s.calls) ∧
    ∀ r ∈ s.returned, r.call < s.calls

/-- The call waits for its promise, or its continuation is queued. -/
def Known (s : State) (call : Nat) : Prop := call ∈ s.unsettled ∨ ∃ p ∈ s.settled, p.call = call

/-- The other calls go on as they were, and a call that goes on returns. -/
structure Kept (call : Nat) (s t : State) : Prop where
  others : ∀ other, other ≠ call → Known s other → Known t other
  returns : Known s call → ∃ r ∈ t.returned, r.call = call
  calls : t.calls ≤ max s.calls (call + 1)

def pushContract (toLowerCase : String → String) (call : Nat) : Contract State where
  inv := Inv toLowerCase
  rely := fun s t => Known s call → Known t call
  guar := Kept call
  waits := fun s => Known s call

variable {s t u : State} {call : Nat} {key : String} {result : Except String Unit} {cause : Cause}

theorem inv_initial : Inv toLowerCase State.initial where
  waiting := fun _ h => absurd h List.not_mem_nil
  resolvers := fun _ h => absurd h List.not_mem_nil
  sent := fun _ h => absurd h List.not_mem_nil
  keys := List.nodup_nil
  holders := List.nodup_nil
  timers := fun _ h => absurd h List.not_mem_nil
  apart := fun _ h => absurd h List.not_mem_nil
  answered := fun _ h => absurd h List.not_mem_nil
  unanswered := fun _ h => absurd h List.not_mem_nil
  causes := fun _ _ h => absurd h List.not_mem_nil
  left := fun _ h => absurd h List.not_mem_nil
  returned := fun _ h => absurd h List.not_mem_nil
  numbered := ⟨fun _ h => absurd h List.not_mem_nil, fun _ h => absurd h List.not_mem_nil,
    fun _ h => absurd h List.not_mem_nil, fun _ h => absurd h List.not_mem_nil,
    fun _ h => absurd h List.not_mem_nil⟩

/-! ## Settling a promise -/

theorem resolver_eq (h : Inv toLowerCase s) (hentry : (key, call) ∈ s.pendingPushResolvers) :
    s.resolver key = some (key, call) := by
  have hfound : s.pendingPushResolvers.find? (fun entry => entry.1 = (key, call).1) =
      some (key, call) := Table.find?_key_of_mem h.keys hentry
  exact hfound

theorem resolver_some {entry : String × Nat} (h : s.resolver key = some entry) :
    entry ∈ s.pendingPushResolvers ∧ entry.1 = key := by
  have hkey := List.find?_some (p := fun entry : String × Nat => entry.1 = key) h
  exact ⟨List.mem_of_find?_eq_some h, of_decide_eq_true hkey⟩

/-- What was settled or has returned keeps its cause when another promise is settled. -/
theorem Answered.mono {causes : List (Nat × Cause)} (h : Answered causes call result)
    {other : Nat} (hne : other ≠ call) :
    Answered (causes ++ [(other, cause)]) call result where
  same := by
    intro e he
    rcases List.mem_append.mp he with hold | hnew
    · exact h.same e hold
    · cases List.mem_singleton.mp hnew
      exact absurd rfl hne
  event := by
    intro hok
    obtain ⟨e, he⟩ := h.event hok
    exact ⟨e, List.mem_append_left _ he⟩

/-- The promise of a pending resolver is settled, and the resolver deleted. -/
def State.take (s : State) (key : String) (call : Nat) (result : Except String Unit)
    (cause : Cause) : State :=
  { s with
    pendingPushResolvers := s.pendingPushResolvers.filter (·.1 ≠ key)
    unsettled := s.unsettled.filter (· ≠ call)
    settled := s.settled ++ [{ call, result }]
    causes := s.causes ++ [(call, cause)] }

theorem settle_eq (h : Inv toLowerCase s) (hentry : (key, call) ∈ s.pendingPushResolvers) :
    (s.settle call result cause).deleteResolver key = s.take key call result cause ∧
      (s.deleteResolver key).settle call result cause = s.take key call result cause := by
  have hcall : s.unsettled.contains call = true := List.contains_iff_mem.mpr (h.waiting _ hentry).1
  have hcall' : (s.deleteResolver key).unsettled.contains call = true := hcall
  refine ⟨?_, ?_⟩
  · rw [State.settle, if_pos hcall]
    rfl
  · rw [State.settle, if_pos hcall']
    rfl

theorem mem_take {entry : String × Nat}
    (h : entry ∈ (s.take key call result cause).pendingPushResolvers) :
    entry ∈ s.pendingPushResolvers ∧ entry.1 ≠ key := by
  obtain ⟨hmem, hne⟩ := List.mem_filter.mp h
  exact ⟨hmem, of_decide_eq_true hne⟩

theorem Inv.take (h : Inv toLowerCase s) (hentry : (key, call) ∈ s.pendingPushResolvers)
    (hcause : ∀ e, cause = .event e → e ∈ s.emitted ∧ e.command = call ∧
      e.event.outcome.result = result)
    (hok : result = .ok () → ∃ e, cause = .event e) :
    Inv toLowerCase (s.take key call result cause) := by
  have hcall := (h.waiting _ hentry).1
  have hsettled : ∀ p ∈ (s.take key call result cause).settled,
      p ∈ s.settled ∨ p = { call, result } := by
    intro p hp
    exact (List.mem_append.mp hp).imp_right List.mem_singleton.mp
  have hopen : ∀ other ∈ (s.take key call result cause).unsettled,
      other ∈ s.unsettled ∧ other ≠ call := by
    intro other hother
    obtain ⟨hmem, hne⟩ := List.mem_filter.mp hother
    exact ⟨hmem, of_decide_eq_true hne⟩
  constructor
  case waiting =>
    intro entry hother
    obtain ⟨hmem, hne⟩ := mem_take hother
    obtain ⟨hwaits, htimer⟩ := h.waiting entry hmem
    refine ⟨List.mem_filter.mpr ⟨hwaits, decide_eq_true ?_⟩, htimer⟩
    -- a call has one resolver
    intro he
    have hsame := List.inj_on_of_nodup_map h.holders hmem hentry he
    rw [hsame] at hne
    exact hne rfl
  case resolvers =>
    intro other hother
    obtain ⟨hmem, hne⟩ := hopen other hother
    obtain ⟨k, hk⟩ := h.resolvers other hmem
    refine ⟨k, List.mem_filter.mpr ⟨hk, decide_eq_true ?_⟩⟩
    intro he
    have hsame := List.inj_on_of_nodup_map h.keys hk hentry he
    exact hne (congrArg Prod.snd hsame)
  case sent =>
    intro command hcommand hother
    obtain ⟨hmem, hne⟩ := hopen _ hother
    have hpending := h.sent command hcommand hmem
    refine List.mem_filter.mpr ⟨hpending, decide_eq_true ?_⟩
    intro he
    exact hne (congrArg Prod.snd (List.inj_on_of_nodup_map h.keys hpending hentry he))
  case keys => exact h.keys.sublist (List.filter_sublist.map _)
  case holders => exact h.holders.sublist (List.filter_sublist.map _)
  case timers =>
    intro timer htimer
    rcases h.timers timer htimer with hpending | ⟨p, hp, hcalled⟩
    · by_cases he : timer.2 = key
      · right
        have hsame := List.inj_on_of_nodup_map h.keys hpending hentry he
        exact ⟨_, List.mem_append_right _ (List.mem_singleton_self _),
          (congrArg Prod.snd hsame).symm⟩
      · exact .inl (List.mem_filter.mpr ⟨hpending, decide_eq_true he⟩)
    · exact .inr ⟨p, List.mem_append_left _ hp, hcalled⟩
  case apart =>
    intro p hp hmem
    obtain ⟨hopen, hne⟩ := hopen _ hmem
    rcases hsettled p hp with hold | rfl
    · exact h.apart p hold hopen
    · exact hne rfl
  case answered =>
    intro p hp
    rcases hsettled p hp with hold | rfl
    · refine (h.answered p hold).mono ?_
      intro he
      exact h.apart p hold (he ▸ hcall)
    · refine ⟨?_, ?_⟩
      · intro e he
        rcases List.mem_append.mp he with hold | hnew
        · exact absurd hold (h.unanswered call hcall _)
        · cases List.mem_singleton.mp hnew
          exact (hcause e rfl).2.2
      · intro he
        obtain ⟨e, rfl⟩ := hok he
        exact ⟨e, List.mem_append_right _ (List.mem_singleton_self _)⟩
  case unanswered =>
    intro other hother c hc
    obtain ⟨hmem, hne⟩ := hopen other hother
    rcases List.mem_append.mp hc with hold | hnew
    · exact h.unanswered other hmem c hold
    · cases List.mem_singleton.mp hnew
      exact hne rfl
  case causes =>
    intro other e he
    rcases List.mem_append.mp he with hold | hnew
    · exact h.causes other e hold
    · cases List.mem_singleton.mp hnew
      exact ⟨(hcause e rfl).1, (hcause e rfl).2.1⟩
  case left =>
    intro r hr hmem
    exact h.left r hr (hopen _ hmem).1
  case returned =>
    intro r hr
    have hne : call ≠ r.call := fun he => h.left r hr (he ▸ hcall)
    rcases h.returned r hr with ⟨hsent, hno⟩ | ⟨result, hresult, hanswered⟩
    · refine .inl ⟨hsent, ?_⟩
      intro c hc
      rcases List.mem_append.mp hc with hold | hnew
      · exact hno c hold
      · cases List.mem_singleton.mp hnew
        exact hne rfl
    · exact .inr ⟨result, hresult, hanswered.mono hne⟩
  case numbered =>
    obtain ⟨hunsettled, hsettled', hcauses', hrest⟩ := h.numbered
    refine ⟨fun other hother => hunsettled other (hopen other hother).1, ?_, ?_, hrest⟩
    · intro p hp
      rcases hsettled p hp with hold | rfl
      · exact hsettled' p hold
      · exact hunsettled call hcall
    · intro c hc
      rcases List.mem_append.mp hc with hold | hnew
      · exact hcauses' c hold
      · rw [List.mem_singleton.mp hnew]
        exact hunsettled call hcall

theorem known_take (key : String) (call : Nat) (result : Except String Unit) (cause : Cause)
    {other : Nat} (h : Known s other) : Known (s.take key call result cause) other := by
  rcases h with hopen | ⟨p, hp, hcalled⟩
  · by_cases he : other = call
    · exact .inr ⟨_, List.mem_append_right _ (List.mem_singleton_self _), he.symm⟩
    · exact .inl (List.mem_filter.mpr ⟨hopen, decide_eq_true he⟩)
  · exact .inr ⟨p, List.mem_append_left _ hp, hcalled⟩

/-- A timer that is cleared, of a call that no longer waits. -/
theorem Inv.clearTimeout (h : Inv toLowerCase s) (hcall : call ∉ s.unsettled) :
    Inv toLowerCase (s.clearTimeout call) :=
  { h with
    waiting := by
      intro entry hentry
      obtain ⟨hwaits, htimer⟩ := h.waiting entry hentry
      refine ⟨hwaits, List.mem_filter.mpr ⟨htimer, decide_eq_true ?_⟩⟩
      exact fun he => hcall (he ▸ hwaits)
    timers := fun timer htimer => h.timers timer (List.mem_of_mem_filter htimer) }

theorem not_mem_take : call ∉ (s.take key call result cause).unsettled := by
  intro hmem
  exact of_decide_eq_true (List.mem_filter.mp hmem).2 rfl

/-! ## What the outside does -/

/-- An event arrives where no push but its own waits under the branch it carries. -/
def Call.NotStale (toLowerCase : String → String) (s : State) : Call → Prop
  | .event e => ∀ key ∈ e.event.key toLowerCase, ∀ entry ∈ s.resolver key, entry.2 = e.command
  | _ => True

/-- Every event there is carries its repository and branch. -/
theorem settlePush_eq {e : Emitted} (h : Inv toLowerCase s)
    (hkey : e.event.key toLowerCase = some key) :
    settlePush toLowerCase s e = s ∨ ∃ call, (key, call) ∈ s.pendingPushResolvers ∧
      s.resolver key = some (key, call) ∧
      settlePush toLowerCase s e = s.take key call e.event.outcome.result (.event e) := by
  unfold settlePush findPushResolver
  rw [hkey]
  dsimp only
  cases hresolver : s.resolver key with
  | none => exact .inl rfl
  | some entry =>
    obtain ⟨k, call⟩ := entry
    obtain ⟨hentry, rfl⟩ := resolver_some hresolver
    exact .inr ⟨call, hentry, rfl, (settle_eq h hentry).1⟩

theorem timedOut_eq (h : Inv toLowerCase s) (hsettled : s.settled = [])
    (htimer : (call, key) ∈ s.timers) :
    (key, call) ∈ s.pendingPushResolvers ∧
      s.timedOut call key = (s.take key call
        (.error "Push operation timed out after 360 seconds") .timeout).clearTimeout call := by
  have hentry : (key, call) ∈ s.pendingPushResolvers := by
    rcases h.timers _ htimer with hpending | ⟨p, hp, _⟩
    · exact hpending
    · rw [hsettled] at hp
      cases hp
  refine ⟨hentry, ?_⟩
  have hresolver : ((s.clearTimeout call).resolver key).isSome = true := by
    show (s.resolver key).isSome = true
    rw [resolver_eq h hentry]
    rfl
  have hcall : ((s.clearTimeout call).deleteResolver key).unsettled.contains call = true :=
    List.contains_iff_mem.mpr (h.waiting _ hentry).1
  rw [State.timedOut, if_pos hresolver, State.settle, if_pos hcall]
  rfl

/-! ## A call of its own -/

/-- Nothing is noted of the call yet. -/
structure Unused (s : State) (call : Nat) : Prop where
  below : call < s.calls
  unsettled : call ∉ s.unsettled
  settled : ∀ p ∈ s.settled, p.call ≠ call
  causes : ∀ cause, (call, cause) ∉ s.causes
  commands : ∀ command ∈ s.commands, command.call ≠ call
  returned : ∀ r ∈ s.returned, r.call ≠ call

variable {id : Nat}

theorem Inv.enter (h : Inv toLowerCase s) (hid : s.calls ≤ id) :
    Inv toLowerCase { s with calls := id + 1 } ∧ Unused { s with calls := id + 1 } id := by
  obtain ⟨hunsettled, hsettled, hcauses, hcommands, hreturned⟩ := h.numbered
  refine ⟨⟨h.waiting, h.resolvers, h.sent, h.keys, h.holders, h.timers, h.apart, h.answered,
    h.unanswered, h.causes, h.left, h.returned, ?_⟩, ?_⟩
  · refine ⟨fun x hx => ?_, fun x hx => ?_, fun x hx => ?_, fun x hx => ?_, fun x hx => ?_⟩
    · exact Nat.lt_succ_of_lt (Nat.lt_of_lt_of_le (hunsettled x hx) hid)
    · exact Nat.lt_succ_of_lt (Nat.lt_of_lt_of_le (hsettled x hx) hid)
    · exact Nat.lt_succ_of_lt (Nat.lt_of_lt_of_le (hcauses x hx) hid)
    · exact Nat.lt_succ_of_lt (Nat.lt_of_lt_of_le (hcommands x hx) hid)
    · exact Nat.lt_succ_of_lt (Nat.lt_of_lt_of_le (hreturned x hx) hid)
  · refine ⟨Nat.lt_succ_self id, fun hx => ?_, fun p hp he => ?_, fun c hc => ?_,
      fun c hc he => ?_, fun r hr he => ?_⟩
    · exact Nat.not_lt.mpr hid (hunsettled id hx)
    · exact Nat.not_lt.mpr hid (he ▸ hsettled p hp)
    · exact Nat.not_lt.mpr hid (hcauses _ hc)
    · exact Nat.not_lt.mpr hid (he ▸ hcommands c hc)
    · exact Nat.not_lt.mpr hid (he ▸ hreturned r hr)

/-- A new promise, where none waits under its key. -/
theorem Inv.openPromise (h : Inv toLowerCase s) (hunused : Unused s call)
    (hkey : (s.resolver key).isSome = false) : Inv toLowerCase (s.openPromise call key) := by
  have hnone : ∀ entry ∈ s.pendingPushResolvers, entry.1 ≠ key := by
    intro entry hentry he
    have hresolver : s.resolver entry.1 = some (entry.1, entry.2) := resolver_eq h hentry
    rw [he] at hresolver
    rw [hresolver] at hkey
    cases hkey
  have hnew : ∀ entry ∈ s.pendingPushResolvers, entry.2 ≠ call :=
    fun entry hentry he => hunused.unsettled (he ▸ (h.waiting entry hentry).1)
  constructor
  case waiting =>
    intro entry hentry
    rcases List.mem_append.mp hentry with hold | hlast
    · obtain ⟨hwaits, htimer⟩ := h.waiting entry hold
      exact ⟨List.mem_append_left _ hwaits, List.mem_append_left _ htimer⟩
    · rw [List.mem_singleton.mp hlast]
      exact ⟨List.mem_append_right _ (List.mem_singleton_self _),
        List.mem_append_right _ (List.mem_singleton_self _)⟩
  case resolvers =>
    intro other hother
    rcases List.mem_append.mp hother with hold | hlast
    · obtain ⟨k, hk⟩ := h.resolvers other hold
      exact ⟨k, List.mem_append_left _ hk⟩
    · rw [List.mem_singleton.mp hlast]
      exact ⟨key, List.mem_append_right _ (List.mem_singleton_self _)⟩
  case sent =>
    intro command hcommand hother
    rcases List.mem_append.mp hother with hold | hlast
    · exact List.mem_append_left _ (h.sent command hcommand hold)
    · exact absurd (List.mem_singleton.mp hlast) (hunused.commands command hcommand)
  case keys =>
    show ((s.pendingPushResolvers ++ [(key, call)]).map Prod.fst).Nodup
    rw [List.map_append]
    refine List.nodup_append.mpr ⟨h.keys, List.nodup_singleton _, ?_⟩
    intro k hk k' hk' he
    obtain ⟨entry, hentry, rfl⟩ := List.mem_map.mp hk
    exact hnone entry hentry (he.trans (List.mem_singleton.mp hk'))
  case holders =>
    show ((s.pendingPushResolvers ++ [(key, call)]).map Prod.snd).Nodup
    rw [List.map_append]
    refine List.nodup_append.mpr ⟨h.holders, List.nodup_singleton _, ?_⟩
    intro k hk k' hk' he
    obtain ⟨entry, hentry, rfl⟩ := List.mem_map.mp hk
    exact hnew entry hentry (he.trans (List.mem_singleton.mp hk'))
  case timers =>
    intro timer htimer
    rcases List.mem_append.mp htimer with hold | hlast
    · exact (h.timers timer hold).imp_left fun hpending => List.mem_append_left _ hpending
    · rw [List.mem_singleton.mp hlast]
      exact .inl (List.mem_append_right _ (List.mem_singleton_self _))
  case apart =>
    intro p hp hmem
    rcases List.mem_append.mp hmem with hold | hlast
    · exact h.apart p hp hold
    · exact hunused.settled p hp (List.mem_singleton.mp hlast)
  case answered => exact h.answered
  case unanswered =>
    intro other hother
    rcases List.mem_append.mp hother with hold | hlast
    · exact h.unanswered other hold
    · rw [List.mem_singleton.mp hlast]
      exact hunused.causes
  case causes => exact h.causes
  case left =>
    intro r hr hmem
    rcases List.mem_append.mp hmem with hold | hlast
    · exact h.left r hr hold
    · exact hunused.returned r hr (List.mem_singleton.mp hlast)
  case returned => exact h.returned
  case numbered =>
    refine ⟨?_, h.numbered.2⟩
    intro other hother
    rcases List.mem_append.mp hother with hold | hlast
    · exact h.numbered.1 other hold
    · rw [List.mem_singleton.mp hlast]
      exact hunused.below

variable {spec : GitPushSpec}

/-- The command of a call that has not returned. -/
theorem Inv.send (h : Inv toLowerCase s) (hbelow : call < s.calls)
    (hreturned : ∀ r ∈ s.returned, r.call ≠ call)
    (hpending : (spec.key toLowerCase, call) ∈ s.pendingPushResolvers) :
    Inv toLowerCase { s with commands := s.commands ++ [{ call, spec }] } := by
  refine ⟨h.waiting, h.resolvers, ?_, h.keys, h.holders, h.timers, h.apart, h.answered,
    h.unanswered, h.causes, h.left, ?_, ?_⟩
  · intro command hcommand
    rcases List.mem_append.mp hcommand with hold | hlast
    · exact h.sent command hold
    · rw [List.mem_singleton.mp hlast]
      exact fun _ => hpending
  · intro r hr
    rcases h.returned r hr with ⟨hsent, hno⟩ | hanswered
    · refine .inl ⟨?_, hno⟩
      intro command hcommand
      rcases List.mem_append.mp hcommand with hold | hlast
      · exact hsent command hold
      · rw [List.mem_singleton.mp hlast]
        exact (hreturned r hr).symm
    · exact .inr hanswered
  · obtain ⟨hunsettled, hsettled, hcauses, hcommands, hrest⟩ := h.numbered
    refine ⟨hunsettled, hsettled, hcauses, ?_, hrest⟩
    intro command hcommand
    rcases List.mem_append.mp hcommand with hold | hlast
    · exact hcommands command hold
    · rw [List.mem_singleton.mp hlast]
      exact hbelow

/-- A call that returns. -/
theorem Inv.leave (h : Inv toLowerCase s) {r : Returned} (hbelow : r.call < s.calls)
    (hleft : r.call ∉ s.unsettled) (hjustified : Justified s.commands s.causes r) :
    Inv toLowerCase { s with returned := s.returned ++ [r] } := by
  have hmem : ∀ other ∈ s.returned ++ [r], other ∈ s.returned ∨ other = r := by
    intro other hother
    exact (List.mem_append.mp hother).imp_right List.mem_singleton.mp
  refine ⟨h.waiting, h.resolvers, h.sent, h.keys, h.holders, h.timers, h.apart, h.answered,
    h.unanswered, h.causes, ?_, ?_, ?_⟩
  · intro other hother
    rcases hmem other hother with hold | rfl
    · exact h.left other hold
    · exact hleft
  · intro other hother
    rcases hmem other hother with hold | rfl
    · exact h.returned other hold
    · exact hjustified
  · obtain ⟨hunsettled, hsettled, hcauses, hcommands, hreturned⟩ := h.numbered
    refine ⟨hunsettled, hsettled, hcauses, hcommands, ?_⟩
    intro other hother
    rcases hmem other hother with hold | rfl
    · exact hreturned other hold
    · exact hbelow

/-- The continuation of a settled promise takes its result and clears the timer. -/
theorem Inv.resume (h : Inv toLowerCase s) {p : Settlement} (hp : p ∈ s.settled) :
    Inv toLowerCase
      (State.clearTimeout { s with settled := s.settled.filter (·.call ≠ p.call) } p.call) :=
  { h with
    waiting := (h.clearTimeout (h.apart p hp)).waiting
    timers := by
      intro timer htimer
      obtain ⟨hmem, hne⟩ := List.mem_filter.mp htimer
      rcases h.timers timer hmem with hpending | ⟨q, hq, hcalled⟩
      · exact .inl hpending
      · refine .inr ⟨q, List.mem_filter.mpr ⟨hq, decide_eq_true ?_⟩, hcalled⟩
        rw [hcalled]
        exact of_decide_eq_true hne
    apart := fun q hq => h.apart q (List.mem_of_mem_filter hq)
    answered := fun q hq => h.answered q (List.mem_of_mem_filter hq)
    numbered := ⟨h.numbered.1, fun q hq => h.numbered.2.1 q (List.mem_of_mem_filter hq),
      h.numbered.2.2⟩ }

/-! ## The contract -/

/-- The events that arrive find no other push waiting under the branch they carry. -/
def notStale (toLowerCase : String → String) : Condition State Call PushOp Unit where
  call k s := k.NotStale toLowerCase s
  answer _ _ _ _ _ := True

/-- What a call that ended has to leave. -/
abbrev PushLeft (toLowerCase strip : String → String) (id : Nat) (k : Call) (s₀ s : State)
    (r : Except String (Option PushResult)) : Prop :=
  (pushServer toLowerCase strip).Left (pushContract toLowerCase) id k s₀ s r

/-- The same for `pushBranchToRemote`, whose result the call returns. -/
abbrev PushEnds (toLowerCase strip : String → String) (id : Nat) (k : Call) (s₀ s : State)
    (r : Except String PushResult) : Prop :=
  PushLeft toLowerCase strip id k s₀ s (r.map some)

/-- What a call has done that did not wait before. -/
structure Begun (id : Nat) (s₀ s : State) : Prop where
  others : ∀ other, other ≠ id → Known s₀ other → Known s other
  new : ¬ Known s₀ id
  calls : s.calls = id + 1

variable {s₀ : State}

theorem Begun.kept (h : Begun id s₀ s) : Kept id s₀ s where
  others := h.others
  returns := fun hknown => absurd hknown h.new
  calls := by
    rw [h.calls]
    exact Nat.le_max_right _ _

theorem Begun.mono (h : Begun id s₀ s) (hknown : ∀ other, Known s other → Known t other)
    (hcalls : t.calls = s.calls) :
    Begun id s₀ t :=
  ⟨fun other hne hother => hknown other (h.others other hne hother), h.new, hcalls.trans h.calls⟩

variable {k : Call}

theorem ends_refused {result : PushResult} (h : Inv toLowerCase s) (hunused : Unused s id)
    (hbegun : Begun id s₀ s) :
    PushEnds toLowerCase strip id k s₀ s (.ok result) := by
  refine ⟨h.leave hunused.below hunused.unsettled ?_, hbegun.others, fun hknown => ?_,
    hbegun.kept.calls⟩
  · exact .inl ⟨hunused.commands, hunused.causes⟩
  · exact absurd hknown hbegun.new

/-- What is left of the call once its promise is settled. -/
theorem wp_awaitPush (hends : (pushContract toLowerCase id).Ends s₀ s) (hwaits : Known s id) :
    (awaitPush id).Wp (pushContract toLowerCase id)
      ((pushServer toLowerCase strip).Answers (notStale toLowerCase) id k)
      (PushEnds toLowerCase strip id k) s₀ s := by
  refine Program.wp_bind (Program.wp_handle (Program.wp_bind ?_))
  refine Program.wp_perform hends hwaits ?_
  intro t _ hinv _ answer u hanswer
  obtain ⟨_, _, hanswered⟩ := hanswer
  obtain ⟨p, hfound, he⟩ := Option.map_eq_some_iff.mp hanswered
  cases he
  have hp := List.mem_of_find?_eq_some hfound
  have hid : p.call = id :=
    of_decide_eq_true (List.find?_some (p := fun p : Settlement => p.call = id) hfound)
  subst hid
  have hknown : ∀ other, other ≠ p.call → Known t other →
      Known (State.clearTimeout { t with settled := t.settled.filter (·.call ≠ p.call) } p.call)
        other := by
    rintro other hne (hopen | ⟨q, hq, rfl⟩)
    · exact .inl hopen
    · exact .inr ⟨q, List.mem_filter.mpr ⟨hq, decide_eq_true hne⟩, rfl⟩
  have hleft : ∀ result, PushResult.ofSettled p.result = result →
      PushEnds toLowerCase strip p.call k t
        (State.clearTimeout { t with settled := t.settled.filter (·.call ≠ p.call) } p.call)
        (.ok result) := by
    intro result hresult
    refine ⟨(hinv.resume hp).leave (hinv.numbered.2.1 p hp) (hinv.apart p hp) ?_, hknown, ?_,
      Nat.le_max_left _ _⟩
    · exact .inr ⟨p.result, hresult.symm, hinv.answered p hp⟩
    · exact fun _ => ⟨_, List.mem_append_right _ (List.mem_singleton_self _), rfl⟩
  cases hresult : p.result with
  | ok u => exact hleft _ (congrArg PushResult.ofSettled hresult)
  | error text => exact hleft _ (congrArg PushResult.ofSettled hresult)

theorem known_openPromise {other : Nat} (h : Known s other) :
    Known (s.openPromise call key) other :=
  h.imp_left fun hopen => List.mem_append_left _ hopen

/-- The command is sent, or the promise rejected; either way the call goes on to wait. -/
theorem wp_dispatch {delivered : Bool} (h : Inv toLowerCase s) (hunused : Unused s id)
    (hbegun : Begun id s₀ s) (hspec : spec.key toLowerCase = key)
    (hkey : (s.resolver key).isSome = false) :
    (do
      Program.modify (·.openPromise id key)
      if delivered then
        Program.modify fun s => { s with commands := s.commands ++ [{ call := id, spec }] }
      else
        Program.modify (undelivered id key)
      awaitPush id : Push PushResult).Wp (pushContract toLowerCase id)
      ((pushServer toLowerCase strip).Answers (notStale toLowerCase) id k)
      (PushEnds toLowerCase strip id k) s₀ s := by
  have hopened := h.openPromise hunused hkey
  have hentry : (key, id) ∈ (s.openPromise id key).pendingPushResolvers :=
    List.mem_append_right _ (List.mem_singleton_self _)
  have hopen : Known (s.openPromise id key) id :=
    .inl (List.mem_append_right _ (List.mem_singleton_self _))
  have hbegun : Begun id s₀ (s.openPromise id key) := hbegun.mono (fun _ => known_openPromise) rfl
  cases delivered with
  | true =>
    refine wp_awaitPush (s := { s.openPromise id key with
      commands := (s.openPromise id key).commands ++ [{ call := id, spec }] }) ⟨?_, ?_⟩ hopen
    · exact hopened.send hunused.below hunused.returned (hspec ▸ hentry)
    · exact ⟨hbegun.others, hbegun.kept.returns, hbegun.kept.calls⟩
  | false =>
    have hundelivered : undelivered id key (s.openPromise id key) =
        ((s.openPromise id key).take key id
          (.error "Failed to deliver push command to sandbox") .undelivered).clearTimeout id := by
      have hcall : (((s.openPromise id key).deleteResolver key).clearTimeout id).unsettled.contains
          id = true := List.contains_iff_mem.mpr (hopened.waiting _ hentry).1
      unfold undelivered
      rw [resolver_eq hopened hentry]
      dsimp only
      rw [State.settle, if_pos hcall]
      rfl
    have htaken : Inv toLowerCase (undelivered id key (s.openPromise id key)) := by
      rw [hundelivered]
      refine (hopened.take hentry ?_ ?_).clearTimeout not_mem_take
      · exact fun e he => by cases he
      · exact fun he => by cases he
    have hkept : ∀ other, Known (s.openPromise id key) other →
        Known (undelivered id key (s.openPromise id key)) other := by
      intro other hother
      rw [hundelivered]
      exact known_take key id _ .undelivered hother
    refine wp_awaitPush (s := undelivered id key (s.openPromise id key)) ⟨htaken, ?_⟩
      (hkept _ hopen)
    refine (hbegun.mono hkept ?_).kept
    rw [hundelivered]
    rfl

theorem wp_pushBranchToRemote {outside : Outside} (h : Inv toLowerCase s) (hunused : Unused s id)
    (hbegun : Begun id s₀ s) :
    (pushBranchToRemote toLowerCase id spec outside).Wp (pushContract toLowerCase id)
      ((pushServer toLowerCase strip).Answers (notStale toLowerCase) id k)
      (PushEnds toLowerCase strip id k) s₀ s := by
  have hrefused : ∀ result, PushEnds toLowerCase strip id k s₀ s (.ok result) :=
    fun result => ends_refused h hunused hbegun
  obtain ⟨admission, target, delivered⟩ := outside
  cases admission with
  | held => exact hrefused _
  | notStarted => exact hrefused _
  -- `ready` and `unmanaged` differ in the result alone
  | _ =>
    refine Program.wp_bind ?_
    show Program.Wp _ _ _ (if (s.resolver (spec.key toLowerCase)).isSome = true then _ else _) s₀ s
    split
    next => exact hrefused _
    next hkey =>
      cases target with
      | booting => exact hrefused _
      | unavailable => exact hrefused _
      | dispatch => exact wp_dispatch h hunused hbegun rfl (Bool.eq_false_iff.mpr hkey)

/-- A call that only changes the state. -/
theorem left_done (h : Inv toLowerCase s) (hbegun : Begun id s₀ s) :
    PushLeft toLowerCase strip id k s₀ s (.ok none) :=
  ⟨h, hbegun.kept⟩

theorem Inv.execute (h : Inv toLowerCase s) (e : Emitted) :
    Inv toLowerCase { s with emitted := s.emitted ++ [e] } :=
  { h with
    causes := by
      intro other f hf
      obtain ⟨hmem, hcommand⟩ := h.causes other f hf
      exact ⟨List.mem_append_left _ hmem, hcommand⟩ }

theorem push_sound :
    (pushServer toLowerCase strip).Sound (notStale toLowerCase) (pushContract toLowerCase)
    (Inv toLowerCase) where
  inv_eq := fun _ => rfl
  refl := fun _ _ h => h
  trans := fun _ _ _ _ h h' hknown => h' (h hknown)
  compatible := fun _ _ _ _ hne hguar => hguar.others _ hne.symm
  stable := fun _ _ _ hknown hrely => hrely hknown
  enters := by
    intro id k s t hinv hok henter
    obtain ⟨hpossible, he⟩ := Option.ite_none_right_eq_some.mp henter
    cases he
    obtain ⟨hinv', hunused⟩ := hinv.enter hpossible.1
    have hbegun : Begun id s { s with calls := id + 1 } := by
      refine ⟨fun _ _ hother => hother, ?_, rfl⟩
      rintro (hopen | ⟨p, hp, hcalled⟩)
      · exact hunused.unsettled hopen
      · exact hunused.settled p hp hcalled
    cases k with
    | push spec outside =>
      refine Program.wp_bind ((wp_pushBranchToRemote hinv' hunused hbegun).mono ?_)
      rintro s₀ s (error | result) hends
      · exact hends
      · exact hends
    | timeout call key =>
      obtain ⟨hempty, htimer⟩ := Bool.and_eq_true_iff.mp hpossible.2
      obtain ⟨hentry, he⟩ := timedOut_eq hinv' (List.isEmpty_iff.mp hempty)
        (List.contains_iff_mem.mp htimer)
      have htaken : Inv toLowerCase (State.timedOut { s with calls := id + 1 } call key) := by
        rw [he]
        refine (hinv'.take hentry ?_ ?_).clearTimeout not_mem_take
        · exact fun e he => by cases he
        · exact fun he => by cases he
      refine left_done (s := State.timedOut { s with calls := id + 1 } call key) htaken
        (hbegun.mono (fun other hother => ?_) ?_)
      · rw [he]
        exact known_take key call _ .timeout hother
      · rw [he]
        rfl
    | execute command outcome =>
      exact left_done (hinv'.execute _) ⟨hbegun.others, hbegun.new, rfl⟩
    | event e =>
      obtain ⟨harrived, hkey⟩ := Bool.and_eq_true_iff.mp hpossible.2
      obtain ⟨_, hemitted⟩ := Bool.and_eq_true_iff.mp harrived
      obtain ⟨key, hkey⟩ := Option.isSome_iff_exists.mp hkey
      have hsettled : Inv toLowerCase (settlePush toLowerCase { s with calls := id + 1 } e) ∧
          Begun id s (settlePush toLowerCase { s with calls := id + 1 } e) := by
        rcases settlePush_eq hinv' hkey with he | ⟨call, hentry, hresolver, he⟩
        · rw [he]
          exact ⟨hinv', hbegun⟩
        · rw [he]
          refine ⟨hinv'.take hentry ?_ ?_, ?_⟩
          · intro f hf
            cases hf
            exact ⟨List.contains_iff_mem.mp hemitted, (hok key hkey _ hresolver).symm, rfl⟩
          · exact fun _ => ⟨e, rfl⟩
          · exact hbegun.mono (fun other hother => known_take key call _ (.event e) hother) rfl
      exact left_done hsettled.1 hsettled.2

/-! ## Results -/

abbrev PushPool := Pool State Call PushOp (fun _ => Unit) String (Option PushResult)

/-- The call that is `i`-th in progress returns at its next step. -/
def Returns (toLowerCase strip : String → String) (pool : PushPool) (i id : Nat) : Prop :=
  ∃ pool', (pushServer toLowerCase strip).step pool (.resume i ()) = some pool' ∧
    ∃ r ∈ pool'.shared.returned, r.call = id

abbrev PushKeeps (toLowerCase strip : String → String) (pool : PushPool) : Prop :=
  (pushServer toLowerCase strip).Keeps (notStale toLowerCase) (pushContract toLowerCase)
    (Inv toLowerCase) pool

variable {pool pool' : PushPool} {i : Nat} {task : Task State Call PushOp (fun _ => Unit) String
  (Option PushResult)}

theorem returns_of_settled (h : PushKeeps toLowerCase strip pool)
    (htask : pool.tasks[i]? = some task) (hsettled : ∃ p ∈ pool.shared.settled, p.call = task.id) :
    Returns toLowerCase strip pool i task.id := by
  obtain ⟨p, hp, hcall⟩ := hsettled
  have hfound : (pool.shared.settled.find? (·.call = task.id)).isSome = true := by
    rw [List.find?_isSome]
    exact ⟨p, hp, decide_eq_true hcall⟩
  obtain ⟨found, hfound⟩ := Option.isSome_iff_exists.mp hfound
  cases hstep : (pushServer toLowerCase strip).step pool (.resume i ()) with
  | none =>
    have hnone := Option.bind_eq_none_iff.mp hstep task htask
    rw [Option.map_eq_none_iff] at hnone
    have hanswer : (pool.shared.settled.find? (·.call = task.id)).map _ = none := hnone
    rw [hfound] at hanswer
    cases hanswer
  | some pool' =>
    have hends := h.resume_ends push_sound (fun _ _ => trivial) htask hstep
    exact ⟨pool', hstep, hends.guar.returns (.inr ⟨p, hp, hcall⟩)⟩

/-- Calls are numbered upward. -/
theorem calls_le_next (h : (pushServer toLowerCase strip).system.Reachable
      (notStale toLowerCase).Allows (Server.idle State.initial) pool) :
    pool.shared.calls ≤ pool.next := by
  have hboth : PushKeeps toLowerCase strip pool ∧ pool.shared.calls ≤ pool.next := by
    refine h.inv (fun pool => PushKeeps toLowerCase strip pool ∧ pool.shared.calls ≤ pool.next)
      ⟨Server.Keeps.idle inv_initial, Nat.le_refl _⟩ ?_
    rintro pool act pool' ⟨hkeeps, hcalls⟩ hok hstep
    cases act with
    | call k =>
      refine ⟨Server.Keeps.call push_sound hkeeps hok hstep, ?_⟩
      obtain ⟨hnext, hends⟩ := Server.Keeps.call_ends push_sound hkeeps hok hstep
      have hguar := hends.guar.calls
      omega
    | resume i choice =>
      refine ⟨Server.Keeps.resume push_sound hkeeps hok hstep, ?_⟩
      obtain ⟨task, htask, _⟩ := Option.bind_eq_some_iff.mp hstep
      have hguar := (hkeeps.resume_ends push_sound hok htask hstep).guar.calls
      have hfresh := hkeeps.fresh task (List.mem_of_getElem? htask)
      have hnext := Server.step_resume_next hstep
      omega
  exact hboth.2

/-- A call that waits has its timer armed. Once no continuation is queued the timer can fire, and
the call returns at its next step. -/
theorem returns_of_unsettled (h : PushKeeps toLowerCase strip pool)
    (hcalls : pool.shared.calls ≤ pool.next) (htask : pool.tasks[i]? = some task)
    (hopen : task.id ∈ pool.shared.unsettled) :
    ∃ key, (task.id, key) ∈ pool.shared.timers ∧ (pool.shared.settled = [] →
      ∃ pool', (pushServer toLowerCase strip).step pool (.call (.timeout task.id key)) = some pool' ∧
        Returns toLowerCase strip pool' i task.id) := by
  obtain ⟨key, hpending⟩ := h.inv.resolvers _ hopen
  have htimer := (h.inv.waiting _ hpending).2
  refine ⟨key, htimer, ?_⟩
  intro hsettled
  have hpossible : (Call.timeout task.id key).possible toLowerCase pool.shared = true := by
    rw [Call.possible, hsettled, List.contains_iff_mem.mpr htimer]
    rfl
  have henter : (pushServer toLowerCase strip).enter pool.next (.timeout task.id key) pool.shared =
      some { pool.shared with calls := pool.next + 1 } := if_pos ⟨hcalls, hpossible⟩
  have hstep : (pushServer toLowerCase strip).step pool (.call (.timeout task.id key)) =
      some { shared := ({ pool.shared with calls := pool.next + 1 } : State).timedOut task.id key
             tasks := pool.tasks ++ []
             next := pool.next + 1 } := by
    show ((pushServer toLowerCase strip).enter _ _ _).map _ = _
    rw [henter]
    rfl
  have hok : (notStale toLowerCase).call (.timeout task.id key) pool.shared := trivial
  refine ⟨_, hstep, returns_of_settled (h.call push_sound hok hstep) ?_ ?_⟩
  · show (pool.tasks ++ [])[i]? = some task
    rw [List.append_nil]
    exact htask
  · obtain ⟨_, he⟩ := timedOut_eq (h.inv.enter hcalls).1 hsettled htimer
    show ∃ p ∈ (State.timedOut { pool.shared with calls := pool.next + 1 } task.id key).settled, _
    rw [he]
    exact ⟨_, List.mem_append_right _ (List.mem_singleton_self _), rfl⟩

/-- **Push results**, in the runs in which no event arrives while another push waits under the
branch it carries. A call that sent its command returns success only if the sandbox completed that
push, and the error of an event only if that push failed. No two calls wait under one key, a call
that has returned has no resolver left, and every call returns. -/
theorem push_results (toLowerCase strip : String → String) (pool : PushPool)
    (h : (pushServer toLowerCase strip).system.Reachable (notStale toLowerCase).Allows
      (Server.idle State.initial) pool) :
    (∀ r ∈ pool.shared.returned, (∃ command ∈ pool.shared.commands, command.call = r.call) →
      r.result = .success →
        ∃ e ∈ pool.shared.emitted, e.command = r.call ∧ e.event.outcome = .complete) ∧
    (∀ r ∈ pool.shared.returned, ∀ e, (r.call, Cause.event e) ∈ pool.shared.causes →
      r.result ≠ .success →
        e ∈ pool.shared.emitted ∧ e.command = r.call ∧ ∃ text, e.event.outcome = .error text) ∧
    ((pool.shared.pendingPushResolvers.map Prod.fst).Nodup ∧
      ∀ command ∈ pool.shared.commands, command.call ∈ pool.shared.unsettled →
        (command.spec.key toLowerCase, command.call) ∈ pool.shared.pendingPushResolvers) ∧
    (∀ r ∈ pool.shared.returned, ∀ entry ∈ pool.shared.pendingPushResolvers, entry.2 ≠ r.call) ∧
    ∀ i task, pool.tasks[i]? = some task → Returns toLowerCase strip pool i task.id ∨
      ∃ key, (task.id, key) ∈ pool.shared.timers ∧ (pool.shared.settled = [] →
        ∃ pool', (pushServer toLowerCase strip).step pool (.call (.timeout task.id key)) =
          some pool' ∧ Returns toLowerCase strip pool' i task.id) := by
  have hkeeps : PushKeeps toLowerCase strip pool := push_sound.reachable inv_initial h
  have hinv := hkeeps.inv
  refine ⟨?_, ?_, ⟨hinv.keys, hinv.sent⟩, ?_, ?_⟩
  · intro r hr hsent hsuccess
    rcases hinv.returned r hr with ⟨hunsent, _⟩ | ⟨result, hresult, hanswered⟩
    · obtain ⟨command, hcommand, hcall⟩ := hsent
      exact absurd hcall (hunsent command hcommand)
    · cases result with
      | error text => cases hresult.symm.trans hsuccess
      | ok u =>
        obtain ⟨e, he⟩ := hanswered.event rfl
        obtain ⟨hmem, hcommand⟩ := hinv.causes r.call e he
        refine ⟨e, hmem, hcommand, ?_⟩
        have hsame := hanswered.same e he
        cases houtcome : e.event.outcome with
        | complete => rfl
        | error text =>
          rw [houtcome] at hsame
          cases hsame
  · intro r hr e he hfailed
    obtain ⟨hmem, hcommand⟩ := hinv.causes r.call e he
    refine ⟨hmem, hcommand, ?_⟩
    rcases hinv.returned r hr with ⟨_, hno⟩ | ⟨result, hresult, hanswered⟩
    · exact absurd he (hno _)
    · have hsame := hanswered.same e he
      cases houtcome : e.event.outcome with
      | error text => exact ⟨text, rfl⟩
      | complete =>
        rw [houtcome] at hsame
        rw [← hsame] at hresult
        exact absurd hresult hfailed
  · intro r hr entry hentry he
    exact hinv.left r hr (he ▸ (hinv.waiting entry hentry).1)
  · intro i task htask
    rcases (hkeeps.waits task (List.mem_of_getElem? htask)).1 with hopen | hsettled
    · exact .inr (returns_of_unsettled hkeeps (calls_le_next h) htask hopen)
    · exact .inl (returns_of_settled hkeeps htask hsettled)

/-- A branch of the session's repository. -/
def featureBranch : GitPushSpec where
  repoOwner := "acme"
  repoName := "web"
  targetBranch := "feature/a"

def connected : Outside where
  admission := .ready
  target := .dispatch
  delivered := true

/-- The event that the first push was completed. -/
def firstCompleted : Emitted where
  command := 0
  event := featureBranch.answered (fun text => text) .complete

instance (toLowerCase : String → String) (s : State) (k : Call) :
    Decidable (k.NotStale toLowerCase s) := by
  unfold Call.NotStale
  split <;> infer_instance

instance (toLowerCase : String → String) (pool : PushPool) (act : Act Call Unit) :
    Decidable ((notStale toLowerCase).Allows pool act) := by
  unfold Condition.Allows notStale
  split <;> infer_instance

/-- The event of a push arrives twice. -/
def completedTwice : List (Act Call Unit) :=
  [.call (.push featureBranch connected), .call (.execute ⟨0, featureBranch⟩ .complete),
    .call (.event firstCompleted), .resume 0 (), .call (.event firstCompleted)]

theorem push_results_completedTwice : ∃ s : State,
    s.returned = [{ call := 0, result := .success }] ∧
      ∃ e ∈ s.emitted, e.command = 0 ∧ e.event.outcome = .complete := by
  have hrun : ((pushServer String.toLower fun text => text).system.run
      (notStale String.toLower).Allows (Server.idle State.initial) completedTwice).any
      (fun pool => pool.shared.returned = [{ call := 0, result := .success }] ∧
        pool.shared.commands.any (·.call = 0)) = true := by
    decide +kernel
  obtain ⟨pool, hpool, hfacts⟩ := (Option.any_eq_true _ _).mp hrun
  obtain ⟨hreturned, hsent⟩ := of_decide_eq_true hfacts
  obtain ⟨command, hcommand, hcall⟩ := List.any_eq_true.mp hsent
  have hresults := push_results String.toLower (fun text => text) pool (System.run_reachable hpool)
  have hmem : { call := 0, result := .success } ∈ pool.shared.returned := by
    rw [hreturned]
    exact List.mem_singleton_self _
  exact ⟨pool.shared, hreturned, hresults.1 _ hmem ⟨command, hcommand, of_decide_eq_true hcall⟩ rfl⟩

/-- A push times out, and the sandbox completes it afterwards. Its event arrives when the same
branch is pushed again. -/
def staleEvent : List (Act Call Unit) :=
  [.call (.push featureBranch connected),
    .call (.timeout 0 (featureBranch.key String.toLower)), .resume 0 (),
    .call (.execute ⟨0, featureBranch⟩ .complete), .call (.push featureBranch connected),
    .call (.event firstCompleted), .resume 0 ()]

theorem stale_event_answers : ∃ pool : PushPool,
    (pushServer String.toLower fun text => text).system.Reachable anyStep
      (Server.idle State.initial) pool ∧
    ∃ r ∈ pool.shared.returned, (∃ command ∈ pool.shared.commands, command.call = r.call) ∧
      r.result = .success ∧ ∀ e ∈ pool.shared.emitted, e.command ≠ r.call := by
  have hrun : ((pushServer String.toLower fun text => text).system.run anyStep
      (Server.idle State.initial) staleEvent).any (fun pool => ∃ r ∈ pool.shared.returned,
        (∃ command ∈ pool.shared.commands, command.call = r.call) ∧
          r.result = .success ∧ ∀ e ∈ pool.shared.emitted, e.command ≠ r.call) = true := by
    decide +kernel
  obtain ⟨pool, hpool, hfacts⟩ := (Option.any_eq_true _ _).mp hrun
  exact ⟨pool, System.run_reachable hpool, of_decide_eq_true hfacts⟩

end BackgroundAgents.Session.SandboxPush

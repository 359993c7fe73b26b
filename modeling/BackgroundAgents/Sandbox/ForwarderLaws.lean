import BackgroundAgents.Sandbox.EventForwarder

/-!
# What the forwarder's operations do

One spec lemma for each operation of `Forwarder`: which fields it changes, and what
their members are afterwards. The two dictionaries are read as sets of events, which
they are while ackIds tell events apart (`Forwarder.Census`); `Evicts` says all that
an overflow can do to the buffer. `Forwarder.Later` is what no operation takes back.
-/

namespace BackgroundAgents.Sandbox

open Forwarder (Outcome)

/-! ## Events by ackId -/

variable {acks : List Event}

theorem mem_without {k : AckId} {e : Event} :
    e ∈ without acks k ↔ e ∈ acks ∧ e.ackKey ≠ some k := by
  simp [without]

theorem mem_putAck {k : AckId} {e x : Event} :
    x ∈ putAck acks k e ↔ (x ∈ acks ∧ x.ackKey ≠ some k) ∨ x = e := by
  simp [putAck, mem_without]

theorem lookup_some {k : AckId} {e : Event} (h : lookup acks k = some e) :
    e ∈ acks ∧ e.ackKey = some k :=
  ⟨List.mem_of_find?_eq_some h, by simpa using List.find?_some h⟩

theorem lookup_none {k : AckId} :
    lookup acks k = none ↔ ∀ e ∈ acks, e.ackKey ≠ some k := by
  simp [lookup, List.find?_eq_none]

/-- Where ackIds tell events apart, `get` is membership. -/
theorem lookup_eq {k : AckId} {e : Event} (hkeys : ∀ x ∈ acks, x.ackKey = some k → x = e)
    (he : e.ackKey = some k) :
    lookup acks k = some e ↔ e ∈ acks := by
  constructor
  · intro h
    exact (lookup_some h).1
  · intro h
    cases hl : lookup acks k with
    | none => exact absurd he (lookup_none.mp hl e h)
    | some x => rw [hkeys x (lookup_some hl).1 (lookup_some hl).2]

theorem Event.isCritical_of_ackKey {e : Event} (h : e.ackKey ≠ none) : e.isCritical = true := by
  unfold Event.ackKey at h
  split at h
  · assumption
  · exact absurd rfl h

/-! ## Known events -/

namespace Forwarder

/-- An event that some `send` was called with. -/
def Known (f : Forwarder) (e : Event) : Prop := ∃ buffered, (e, buffered) ∈ f.called

/-- **What is on the forwarder's books**: the events of its calls of `send`, numbered in
order, told apart by their ackIds; whatever is held is one of them. -/
structure Census (f : Forwarder) : Prop where
  numbered : ∀ p ∈ f.called, p.1.call < f.called.length
  distinct : ∀ p ∈ f.called, ∀ q ∈ f.called, p.1.call = q.1.call → p = q
  keyed : ∀ p ∈ f.called, ∀ q ∈ f.called, p.1.ackKey ≠ none → p.1.ackKey = q.1.ackKey → p = q
  critical : ∀ p ∈ f.called, p.1.isCritical → p.1.ackKey ≠ none
  buffer : ∀ e ∈ f.eventBuffer, f.Known e
  pending : ∀ e ∈ f.pendingAcks, f.Known e ∧ e.isCritical
  inFlight : ∀ e ∈ f.inFlightAcks, f.Known e ∧ e.isCritical
  nodup : f.pendingAcks.Nodup

variable {f : Forwarder} {e x : Event} {k : AckId} {cfg : Settings}

theorem Census.eq_of_ackKey (h : f.Census) (he : f.Known e) (hx : f.Known x)
    (hk : e.ackKey = some k) (hxk : x.ackKey = some k) : x = e := by
  obtain ⟨b, hb⟩ := he
  obtain ⟨c, hc⟩ := hx
  have hpair := h.keyed _ hc _ hb (by simp [hxk]) (by simp [hk, hxk])
  exact congrArg Prod.fst hpair

theorem Census.ackKey (h : f.Census) (he : f.Known e) (hc : e.isCritical) :
    ∃ k, e.ackKey = some k := by
  obtain ⟨b, hb⟩ := he
  exact Option.ne_none_iff_exists'.mp (h.critical _ hb hc)

theorem Census.ackKey_none (h : f.Census) (he : f.Known e) :
    e.ackKey = none ↔ ¬ e.isCritical := by
  constructor
  · intro hn hc
    obtain ⟨k, hk⟩ := h.ackKey he hc
    simp [hk] at hn
  · intro hc
    simp [Event.ackKey, hc]

theorem Census.isPending_iff (h : f.Census) (he : f.Known e) (hk : e.ackKey = some k) :
    f.isPending e k ↔ e ∈ f.pendingAcks := by
  unfold isPending
  rw [decide_eq_true_iff]
  exact lookup_eq (fun x hx hxk => h.eq_of_ackKey he (h.pending x hx).1 hk hxk) hk

theorem Census.replayable_iff (h : f.Census) (he : f.Known e) :
    f.replayable e ↔ e.isCritical = false ∨ e ∈ f.pendingAcks := by
  unfold replayable
  split
  next hk =>
    have hn := (h.ackKey_none he).mp hk
    simp [hn]
  next k hk =>
    rw [h.isPending_iff he hk]
    have hc := Event.isCritical_of_ackKey (e := e) (by simp [hk])
    simp [hc]

/-- Of all the events with this ackId, `without` takes out this one. -/
theorem Census.ne_iff (h : f.Census) (he : f.Known e) (hx : f.Known x) (hk : e.ackKey = some k) :
    x.ackKey ≠ some k ↔ x ≠ e := by
  constructor
  · rintro hxk rfl
    exact hxk hk
  · intro hne hxk
    exact hne (h.eq_of_ackKey he hx hk hxk)

/-! ## Spec lemmas -/

theorem claim_spec (h : f.Census) (he : f.Known e) :
    ∃ pending inFlight,
      f.claim e = { f with pendingAcks := pending, inFlightAcks := inFlight } ∧
      (∀ x, x ∈ pending ↔ x ∈ f.pendingAcks ∨ (x = e ∧ e.isCritical)) ∧
      (∀ x, x ∈ inFlight ↔ x ∈ f.inFlightAcks ∨ (x = e ∧ e.isCritical)) ∧ pending.Nodup := by
  unfold claim
  split
  next hk =>
    have hn := (h.ackKey_none he).mp hk
    exact ⟨_, _, rfl, by simp [hn], by simp [hn], h.nodup⟩
  next k hk =>
    have hc := Event.isCritical_of_ackKey (e := e) (by simp [hk])
    have hput : ∀ acks : List Event, (∀ x ∈ acks, f.Known x) →
        ∀ x, x ∈ putAck acks k e ↔ x ∈ acks ∨ (x = e ∧ e.isCritical) := by
      intro acks hknown x
      rw [mem_putAck]
      have hne := fun hx => h.ne_iff he (hknown x hx) hk
      grind
    refine ⟨_, _, rfl, hput _ fun x hx => (h.pending x hx).1,
      hput _ fun x hx => (h.inFlight x hx).1, ?_⟩
    refine List.nodup_append.mpr ⟨h.nodup.filter _, by simp, ?_⟩
    intro x hx y hy hxy
    rw [List.mem_singleton.mp hy] at hxy
    rw [hxy] at hx
    exact (mem_without.mp hx).2 hk

theorem clearInFlight_spec (h : f.Census) (he : f.Known e) :
    ∃ inFlight, f.clearInFlight e = { f with inFlightAcks := inFlight } ∧
      ∀ x, x ∈ inFlight ↔ x ∈ f.inFlightAcks ∧ x ≠ e := by
  unfold clearInFlight
  split
  next hk =>
    have hn := (h.ackKey_none he).mp hk
    have hne : ∀ x ∈ f.inFlightAcks, x ≠ e := fun x hx hxe => hn (hxe ▸ (h.inFlight x hx).2)
    exact ⟨_, rfl, fun x => ⟨fun hx => ⟨hx, hne x hx⟩, And.left⟩⟩
  next k hk =>
    have hkeys : ∀ x ∈ f.inFlightAcks, x.ackKey = some k → x = e :=
      fun x hx => h.eq_of_ackKey he (h.inFlight x hx).1 hk
    split
    next =>
      refine ⟨_, rfl, fun x => ?_⟩
      rw [mem_without]
      exact and_congr_right fun hx => h.ne_iff he (h.inFlight x hx).1 hk
    next hmem =>
      rw [lookup_eq hkeys hk] at hmem
      exact ⟨_, rfl, fun x => ⟨fun hx => ⟨hx, fun hxe => hmem (hxe ▸ hx)⟩, And.left⟩⟩

theorem unclaim_spec (h : f.Census) (he : f.Known e) :
    ∃ pending, f.unclaim e = { f with pendingAcks := pending } ∧
      (∀ x, x ∈ pending ↔ x ∈ f.pendingAcks ∧ x ≠ e) ∧ pending.Nodup := by
  unfold unclaim
  split
  next hk =>
    have hn := (h.ackKey_none he).mp hk
    have hne : ∀ x ∈ f.pendingAcks, x ≠ e := fun x hx hxe => hn (hxe ▸ (h.pending x hx).2)
    exact ⟨_, rfl, fun x => ⟨fun hx => ⟨hx, hne x hx⟩, And.left⟩, h.nodup⟩
  next k hk =>
    split
    next =>
      refine ⟨_, rfl, fun x => ?_, h.nodup.filter _⟩
      rw [mem_without]
      exact and_congr_right fun hx => h.ne_iff he (h.pending x hx).1 hk
    next hmem =>
      rw [h.isPending_iff he hk] at hmem
      exact ⟨_, rfl, fun x => ⟨fun hx => ⟨hx, fun hxe => hmem (hxe ▸ hx)⟩, And.left⟩, h.nodup⟩

theorem acknowledge_spec (h : f.Census) (k : AckId) :
    f.acknowledge k = f ∨
    ∃ e ∈ f.pendingAcks, ∃ pending,
      f.acknowledge k =
        { f with pendingAcks := pending, acknowledged := e :: f.acknowledged } ∧
      (∀ x, x ∈ pending ↔ x ∈ f.pendingAcks ∧ x ≠ e) ∧ pending.Nodup := by
  unfold acknowledge
  split
  next => exact .inl rfl
  next e he =>
    obtain ⟨hmem, hk⟩ := lookup_some he
    refine .inr ⟨e, hmem, _, rfl, fun x => ?_, h.nodup.filter _⟩
    rw [mem_without]
    exact and_congr_right fun hx => h.ne_iff (h.pending e hmem).1 (h.pending x hx).1 hk

/-- A flush takes its head out of the buffer, unless an overflow already has. -/
theorem popHead_spec {buffer : List Event} (hb : f.eventBuffer = buffer) (hd : buffer.Nodup)
    (hhead : buffer.head? = some e ∨ e ∉ buffer) :
    ∃ rest, f.popHead e = { f with eventBuffer := rest } ∧ rest.Sublist buffer ∧
      ∀ x, x ∈ rest ↔ x ∈ buffer ∧ x ≠ e := by
  unfold popHead
  rw [hb]
  split
  next hh =>
    obtain ⟨rest, rfl⟩ : ∃ rest, buffer = e :: rest := by
      cases buffer with
      | nil => cases hh
      | cons y ys => exact ⟨ys, by simpa using hh⟩
    refine ⟨rest, rfl, List.sublist_cons_self _ _, fun x => ?_⟩
    have hne := (List.nodup_cons.mp hd).1
    simp only [List.mem_cons]
    constructor
    · intro hx
      exact ⟨.inr hx, fun hxe => hne (hxe ▸ hx)⟩
    · rintro ⟨hx | hx, hne'⟩
      · exact absurd hx hne'
      · exact hx
  next hh =>
    refine ⟨buffer, by rw [← hb], List.Sublist.refl _, fun x => ⟨fun hx => ⟨hx, ?_⟩, And.left⟩⟩
    rintro rfl
    rcases hhead with hhead | hno
    · exact hh hhead
    · exact hno hx

/-! ### The transport -/

/-- What may happen to the bound connection: it is unbound only by retiring it. -/
def WsKept (f f' : Forwarder) : Prop :=
  f'.ws = f.ws ∨ ∃ c, f.ws = some c ∧ f'.ws = none ∧ c ∈ f'.ended

/-- Nothing that was noted is taken back. -/
structure Later (f f' : Forwarder) : Prop where
  acknowledged : f.acknowledged ⊆ f'.acknowledged
  evictions : f.evictions ⊆ f'.evictions
  closing : f.closing ⊆ f'.closing
  ended : f.ended ⊆ f'.ended
  bound : f.bound ⊆ f'.bound
  written : f.written ⊆ f'.written
  unwritten : f.unwritten ⊆ f'.unwritten

theorem Later.refl (f : Forwarder) : f.Later f :=
  ⟨fun _ => id, fun _ => id, fun _ => id, fun _ => id, fun _ => id, fun _ => id, fun _ => id⟩

/-- Two states of the forwarder that differ only in its connections, in what was
written on them, and in marks that were cleared. -/
structure Quiet (f f' : Forwarder) : Prop where
  called : f'.called = f.called
  eventBuffer : f'.eventBuffer = f.eventBuffer
  pendingAcks : f'.pendingAcks = f.pendingAcks
  inFlightAcks : f'.inFlightAcks ⊆ f.inFlightAcks
  recovered : f'.recovered = f.recovered
  ws : WsKept f f'
  later : Later f f'

theorem Quiet.refl (f : Forwarder) : f.Quiet f :=
  ⟨rfl, rfl, rfl, fun _ => id, rfl, .inl rfl, .refl f⟩

theorem retire_quiet (f : Forwarder) (ws : Ws) : f.Quiet (f.retireTimedOutConnection ws) where
  called := rfl
  eventBuffer := rfl
  pendingAcks := rfl
  inFlightAcks := fun _ => id
  recovered := rfl
  ws := by
    unfold WsKept retireTimedOutConnection
    by_cases h : f.ws = some ws
    · exact .inr ⟨ws, h, by simp [h], by simp⟩
    · exact .inl (by simp [h])
  later := { Later.refl f with ended := fun _ hx => List.mem_cons_of_mem _ hx }

theorem endWrite_quiet (f : Forwarder) (w : Write) (o : Outcome) : f.Quiet (f.endWrite w o) := by
  cases o with
  | ok =>
    exact ⟨rfl, rfl, rfl, fun _ => id, rfl, .inl rfl,
      { Later.refl f with written := fun _ hx => List.mem_cons_of_mem _ hx }⟩
  | timedOut =>
    exact { retire_quiet f w.ws with
      later := { (retire_quiet f w.ws).later with
        unwritten := fun _ hx => List.mem_cons_of_mem _ hx } }
  | failed | cancelled | deadline =>
    exact ⟨rfl, rfl, rfl, fun _ => id, rfl, .inl rfl,
      { Later.refl f with unwritten := fun _ hx => List.mem_cons_of_mem _ hx }⟩

/-- A write that did not succeed is noted for its connection. -/
theorem endWrite_unwritten (f : Forwarder) (w : Write) {o : Outcome} (h : o ≠ .ok) :
    w.ws ∈ (f.endWrite w o).unwritten := by
  cases o with
  | ok => exact absurd rfl h
  | failed | timedOut | cancelled | deadline => exact List.mem_cons_self

theorem rebindDeadline_quiet (f : Forwarder) : f.Quiet f.rebindDeadline := by
  unfold rebindDeadline
  split
  next => exact ⟨rfl, rfl, rfl, fun _ => id, rfl, .inl rfl, .refl f⟩
  next c _ =>
    have h := retire_quiet { f with cancelledWriteWs := none } c
    exact ⟨rfl, rfl, rfl, fun _ => id, rfl, h.ws, { h.later with }⟩

theorem clearInFlight_quiet (h : f.Census) (he : f.Known e) : f.Quiet (f.clearInFlight e) := by
  obtain ⟨inFlight, hf, hmem⟩ := clearInFlight_spec h he
  rw [hf]
  exact ⟨rfl, rfl, rfl, fun x hx => ((hmem x).mp hx).1, rfl, .inl rfl, { Later.refl f with }⟩

theorem Quiet.known {f' : Forwarder} (h : f.Quiet f') : f'.Known e ↔ f.Known e := by
  unfold Known
  rw [h.called]

theorem Census.mono {f' : Forwarder} (h : f.Census) (hcalled : f'.called = f.called)
    (hbuffer : ∀ e ∈ f'.eventBuffer, f.Known e)
    (hpending : ∀ e ∈ f'.pendingAcks, f.Known e ∧ e.isCritical)
    (hinFlight : ∀ e ∈ f'.inFlightAcks, f.Known e ∧ e.isCritical)
    (hnodup : f'.pendingAcks.Nodup) : f'.Census where
  numbered := by rw [hcalled]; exact h.numbered
  distinct := by rw [hcalled]; exact h.distinct
  keyed := by rw [hcalled]; exact h.keyed
  critical := by rw [hcalled]; exact h.critical
  buffer := by unfold Known; rw [hcalled]; exact hbuffer
  pending := by unfold Known; rw [hcalled]; exact hpending
  inFlight := by unfold Known; rw [hcalled]; exact hinFlight
  nodup := hnodup

theorem Quiet.census {f' : Forwarder} (h : f.Quiet f') (hc : f.Census) : f'.Census :=
  hc.mono h.called (by rw [h.eventBuffer]; exact hc.buffer) (by rw [h.pendingAcks]; exact hc.pending)
    (fun e he => hc.inFlight e (h.inFlightAcks he)) (h.pendingAcks ▸ hc.nodup)

/-- No write verdict in it, and no call. -/
theorem unclaimHead_frame (f : Forwarder) (e : Event) :
    (f.unclaimHead e).called = f.called ∧ f.Later (f.unclaimHead e) := by
  unfold unclaimHead unclaim popHead
  split
  · split
    · exact ⟨rfl, .refl f⟩
    · split
      · exact ⟨rfl, { Later.refl f with }⟩
      · exact ⟨rfl, .refl f⟩
  · split
    · exact ⟨rfl, { Later.refl f with }⟩
    · exact ⟨rfl, .refl f⟩

theorem cancelledWriteWs_quiet (f : Forwarder) (ws : Option Ws) :
    f.Quiet { f with cancelledWriteWs := ws } :=
  ⟨rfl, rfl, rfl, fun _ => id, rfl, .inl rfl, { Later.refl f with }⟩

theorem openWs_some {c : Ws} (h : f.openWs = some c) : f.ws = some c ∧ f.isOpen c := by
  unfold openWs at h
  exact Option.filter_eq_some_iff.mp h

theorem openWs_none (h : f.openWs = none) : ∀ c, f.ws = some c → f.isOpen c = false := by
  intro c hc
  unfold openWs at h
  rw [hc] at h
  simpa using h

/-! ### Overflow -/

/-- What an overflow drops (`event`), of a buffer of which `rest` stays: the rest keeps
its order, and a critical event goes only from a buffer of critical ones. -/
structure Evicts (buffer rest : List Event) (event : Event) : Prop where
  sub : rest.Sublist buffer
  mem : ∀ x, x ∈ buffer ↔ x ∈ rest ∨ x = event
  gone : buffer.Nodup → event ∉ rest
  critical : event.isCritical → ∀ x ∈ buffer, x.isCritical
  head : ∀ x, buffer.head? = some x → x ≠ event → rest.head? = some x

theorem evict_spec {buffer rest : List Event} (h : evict buffer = some (e, rest)) :
    Evicts buffer rest e := by
  unfold evict at h
  split at h
  next v hv =>
    cases h
    have hp : (!e.isCritical) = true := by simpa using List.find?_some hv
    obtain ⟨-, as, bs, rfl, has⟩ := List.find?_eq_some_iff_append.mp hv
    have hrest : (as ++ e :: bs).eraseP (!·.isCritical) = as ++ bs := by
      rw [List.eraseP_append_right _ (by simpa using has)]
      simp [hp]
    rw [hrest]
    refine ⟨by simp, by simp; tauto, ?_, ?_, ?_⟩
    · intro hd
      exact (List.nodup_cons.mp (List.perm_middle.nodup_iff.mp hd)).1
    · intro hc
      simp [hc] at hp
    · intro x hx hne
      cases as with
      | nil => simp_all
      | cons a as => simpa using hx
  next hnone =>
    rw [List.find?_eq_none] at hnone
    cases buffer with
    | nil => cases h
    | cons v vs =>
      cases h
      refine ⟨List.sublist_cons_self _ _, by simp; tauto, ?_, ?_, ?_⟩
      · intro hd
        exact (List.nodup_cons.mp hd).1
      · intro _ x hx
        simpa using hnone x hx
      · intro x hx hne
        simp only [List.head?_cons, Option.some.injEq] at hx
        exact absurd hx.symm hne

theorem bufferEvent_spec (cfg : Settings) (f : Forwarder) (e : Event) :
    (∃ rest evictions, f.bufferEvent cfg e =
      { f with eventBuffer := rest ++ [e], evictions := evictions } ∧
      ((rest = f.eventBuffer ∧ evictions = f.evictions) ∨
        ∃ v, Evicts f.eventBuffer rest v ∧ cfg.maxBufferSize ≤ f.eventBuffer.length ∧
          evictions = ⟨v, f.eventBuffer⟩ :: f.evictions)) := by
  unfold bufferEvent
  split
  next hfull =>
    split
    next hnone =>
      -- A full buffer is not empty.
      have hpos := cfg.positive
      cases hb : f.eventBuffer with
      | nil => simp [hb] at hfull; omega
      | cons v vs => simp only [evict, hb] at hnone; split at hnone <;> cases hnone
    next v rest hv => exact ⟨_, _, rfl, .inr ⟨v, evict_spec hv, hfull, rfl⟩⟩
  next => exact ⟨_, _, rfl, .inl ⟨rfl, rfl⟩⟩

theorem rebuffer_called (cfg : Settings) (f : Forwarder) (e : Event) (buffered : Bool) :
    (f.rebuffer cfg e buffered).called = f.called := by
  have hun : (f.unclaim e).called = f.called := by
    unfold unclaim
    split
    · rfl
    · split <;> rfl
  unfold rebuffer
  split
  · obtain ⟨rest, evictions, heq, -⟩ := bufferEvent_spec cfg (f.unclaim e) e
    rw [heq]
    exact hun
  · exact hun

end Forwarder

end BackgroundAgents.Sandbox

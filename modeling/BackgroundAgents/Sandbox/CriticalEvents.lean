import BackgroundAgents.Lib.Workers
import BackgroundAgents.Sandbox.ForwarderLaws

/-!
# No critical event is lost

Where a critical event is, over every run of the forwarder: it was acknowledged, or an
overflow dropped it from a buffer of nothing but critical events, or it is in the
buffer or pending. `Sound` is the invariant. It says of every coroutine what its
suspension relies on: a direct send, that its event is nowhere else (`Sound.apart`);
a flush, that its event is still the head of the buffer, or gone from it
(`Flushing`); a bind, that what it owes its connection will still come its way
(`Awaiting`, `Resending`). A state between two suspensions has no holder of the lock,
and may have one event in hand that is in no place yet (`loose`).
-/

namespace BackgroundAgents.Sandbox

open BackgroundAgents.Transition
open Forwarder (Outcome)

variable {cfg : Settings}

namespace Forwarder

/-- Dropped by an overflow of a buffer that was full of critical events only. -/
def EvictedFull (cfg : Settings) (f : Forwarder) (e : Event) : Prop :=
  ∃ v ∈ f.evictions, v.event = e ∧ cfg.maxBufferSize ≤ v.buffer.length ∧
    ∀ x ∈ v.buffer, x.isCritical

/-- The forwarder need not hold the event any more. -/
def Released (cfg : Settings) (f : Forwarder) (e : Event) : Prop :=
  e ∈ f.acknowledged ∨ f.EvictedFull cfg e

/-- Nothing is owed to the connection for this event. -/
def Settled (cfg : Settings) (f : Forwarder) (ws : Ws) (e : Event) : Prop :=
  f.Released cfg e ∨ ∃ w ∈ f.written, w.event = e ∧ w.ws = ws

/-- The connection is not open, or a write on it did not succeed. -/
def Unclean (f : Forwarder) (ws : Ws) : Prop := f.isOpen ws = false ∨ ws ∈ f.unwritten

variable {f f' : Forwarder} {e : Event} {ws : Ws}

theorem Later.released (h : f.Later f') (he : f.Released cfg e) : f'.Released cfg e := by
  rcases he with he | ⟨v, hv, hve⟩
  · exact .inl (h.acknowledged he)
  · exact .inr ⟨v, h.evictions hv, hve⟩

theorem Later.settled (h : f.Later f') (he : f.Settled cfg ws e) : f'.Settled cfg ws e := by
  rcases he with he | ⟨w, hw, hwe⟩
  · exact .inl (h.released he)
  · exact .inr ⟨w, h.written hw, hwe⟩

theorem Later.unclean (h : f.Later f') (hu : f.Unclean ws) : f'.Unclean ws := by
  rcases hu with hu | hu
  · left
    unfold isOpen at hu ⊢
    simp only [decide_eq_false_iff_not, not_and_or, not_not] at hu ⊢
    exact hu.imp (fun hc => h.closing hc) (fun he => h.ended he)
  · exact .inr (h.unwritten hu)

end Forwarder

/-! ## The invariant -/

/-- The event is the one whose flush write is under way. -/
def State.FlushOf (s : State) (e : Event) : Prop :=
  ∃ o w, s.holder = some (.flushing o w) ∧ w.event = e

/-- What the holder of the lock relies on while it flushes. -/
structure Flushing (cfg : Settings) (s : State) (w : Write) : Prop where
  known : s.f.Known w.event
  unsent : ∀ p ∈ s.sends, p.write.event ≠ w.event
  head : s.f.eventBuffer.head? = some w.event ∨
    (w.event ∉ s.f.eventBuffer ∧ (w.event.isCritical → s.f.Released cfg w.event))
  pending : w.event.isCritical → w.event ∈ s.f.pendingAcks ∨ w.event ∈ s.f.acknowledged

/-- A bind keeps its connection until it is retired, and owes nothing that a direct
send is about to settle. -/
structure Bound (s : State) (b : Bind) : Prop where
  ws : s.f.ws = some b.ws ∨ (s.f.ws = none ∧ b.ws ∈ s.f.ended)
  critical : ∀ e ∈ b.owed, s.f.Known e ∧ e.isCritical
  unsent : ∀ e ∈ b.owed, ∀ p ∈ s.sends, p.write.event ≠ e

/-- A bind before its resend: what it owes is settled, or it is in the buffer and
nobody writes it elsewhere, or it is pending and among the candidates. -/
structure Awaiting (cfg : Settings) (s : State) (b : Bind) : Prop extends Bound s b where
  owed : ∀ e ∈ b.owed, s.f.Settled cfg b.ws e ∨
    (e ∈ s.f.eventBuffer ∧
      ∀ o w, s.holder = some (.flushing o w) → w.event = e → w.ws = b.ws) ∨
    (e ∈ s.f.pendingAcks ∧ ∃ k ∈ b.pendingBeforeBind, e.ackKey = some k)

/-- A bind that resends: what it still owes is pending, under an ackId of `rest`. -/
structure Remaining (cfg : Settings) (s : State) (b : Bind) (rest : List AckId) : Prop
    extends Bound s b where
  owed : s.f.Unclean b.ws ∨ ∀ e ∈ b.owed, s.f.Settled cfg b.ws e ∨
    (e ∈ s.f.pendingAcks ∧ ∃ k ∈ rest, e.ackKey = some k)

/-- A bind that is parked on a write of its resend. -/
structure Resending (cfg : Settings) (s : State) (b : Bind) (rest : List AckId) (w : Write) :
    Prop extends Bound s b where
  write : w.ws = b.ws
  known : s.f.Known w.event
  owed : s.f.Unclean b.ws ∨ ∀ e ∈ b.owed, s.f.Settled cfg b.ws e ∨ w.event = e ∨
    (e ∈ s.f.pendingAcks ∧ ∃ k ∈ rest, e.ackKey = some k)

/-- What a coroutine relies on that waits for the lock, or is about to flush. -/
def Fit (cfg : Settings) (s : State) : Owner → Prop
  | .drain e => s.f.Known e ∧ ∀ p ∈ s.sends, p.write.event ≠ e
  | .bind b => Awaiting cfg s b

/-- **The invariant.** `loose` is an event in hand. -/
structure Sound (cfg : Settings) (s : State) (loose : Option Event := none) : Prop where
  census : s.f.Census
  known : ∀ p ∈ s.sends, (p.write.event, p.buffered) ∈ s.f.called
  sendsNodup : (s.sends.map (·.write.event)).Nodup
  bufferNodup : s.f.eventBuffer.Nodup
  apart : ∀ p ∈ s.sends, p.write.event ∉ s.f.eventBuffer
  sending : ∀ p ∈ s.sends, p.write.event.isCritical → p.write.event ∈ s.f.inFlightAcks
  once : ∀ e ∈ s.f.eventBuffer, e ∈ s.f.pendingAcks → s.FlushOf e
  held : ∀ e, (e, true) ∈ s.f.called → e.isCritical → loose ≠ some e →
    s.f.Released cfg e ∨ e ∈ s.f.eventBuffer ∨ e ∈ s.f.pendingAcks
  flushing : ∀ o w, s.holder = some (.flushing o w) →
    Flushing cfg s w ∧ Fit cfg s o ∧ ∀ b, o = .bind b → w.ws = b.ws
  resending : ∀ b rest w, s.holder = some (.resending b rest w) → Resending cfg s b rest w
  waiting : ∀ o ∈ s.waiters, Fit cfg s o
  recovered : ∀ r ∈ s.f.recovered, r.clean → ∀ e ∈ r.owed, s.f.Settled cfg r.ws e

variable {s s' : State} {e : Event} {b : Bind} {o : Owner} {loose : Option Event}

/-! ## Steps that move no event -/

theorem Bound.mono (h : Bound s b) (hws : s.f.WsKept s'.f) (hended : s.f.ended ⊆ s'.f.ended)
    (hcalled : s.f.called ⊆ s'.f.called)
    (hsends : ∀ p ∈ s'.sends, ∀ e ∈ b.owed, p.write.event = e → p ∈ s.sends) : Bound s' b where
  critical := fun e he => (h.critical e he).imp_left fun ⟨bf, hk⟩ => ⟨bf, hcalled hk⟩
  ws := by
    rcases hws with hw | ⟨c, hc, hn, he⟩
    · rcases h.ws with hb | ⟨hb, he⟩
      · exact .inl (hw.trans hb)
      · exact .inr ⟨hw.trans hb, hended he⟩
    · rcases h.ws with hb | ⟨hb, -⟩
      · rw [hb, Option.some.injEq] at hc
        exact .inr ⟨hn, hc ▸ he⟩
      · rw [hb] at hc
        cases hc
  unsent := fun e he p hp hpe => h.unsent e he p (hsends p hp e he hpe) hpe

theorem Awaiting.mono (h : Awaiting cfg s b) (hb : Bound s' b)
    (howed : ∀ e ∈ b.owed,
      (e ∈ s.f.eventBuffer ∧
        ∀ o w, s.holder = some (.flushing o w) → w.event = e → w.ws = b.ws) ∨
      (e ∈ s.f.pendingAcks ∧ ∃ k ∈ b.pendingBeforeBind, e.ackKey = some k) →
      s'.f.Settled cfg b.ws e ∨
      (e ∈ s'.f.eventBuffer ∧
        ∀ o w, s'.holder = some (.flushing o w) → w.event = e → w.ws = b.ws) ∨
      (e ∈ s'.f.pendingAcks ∧ ∃ k ∈ b.pendingBeforeBind, e.ackKey = some k))
    (hlater : s.f.Later s'.f) : Awaiting cfg s' b where
  toBound := hb
  owed := by
    intro e he
    rcases h.owed e he with hs | hplace
    · exact .inl (hlater.settled hs)
    · exact howed e he hplace

/-- Only the connections changed, and some coroutines may be gone. -/
structure Quiet (s s' : State) : Prop where
  f : s.f.Quiet s'.f
  sends : s'.sends.Sublist s.sends
  holder : s'.holder = s.holder

theorem Quiet.bound (h : Quiet s s') (hb : Bound s b) : Bound s' b :=
  hb.mono h.f.ws h.f.later.ended (h.f.called ▸ fun _ => id) fun _ hp _ _ _ => h.sends.subset hp

theorem Fit.mono (ho : Fit cfg s o) (hcalled : s.f.called ⊆ s'.f.called)
    (hsends : ∀ p ∈ s'.sends, s.f.Known p.write.event → p ∈ s.sends)
    (hbind : ∀ b, Awaiting cfg s b → Awaiting cfg s' b) : Fit cfg s' o := by
  cases o with
  | drain e =>
    obtain ⟨⟨bf, hk⟩, hs⟩ := ho
    refine ⟨⟨bf, hcalled hk⟩, fun p hp hpe => ?_⟩
    exact hs p (hsends p hp (hpe ▸ ⟨bf, hk⟩)) hpe
  | bind b => exact hbind b ho

theorem Quiet.awaiting (h : Quiet s s') (hb : Awaiting cfg s b) : Awaiting cfg s' b := by
  refine hb.mono (h.bound hb.toBound) (fun e he hplace => ?_) h.f.later
  rw [h.f.eventBuffer, h.f.pendingAcks, h.holder]
  exact .inr hplace

theorem Quiet.fit (h : Quiet s s') (ho : Fit cfg s o) : Fit cfg s' o :=
  ho.mono (h.f.called ▸ fun _ => id) (fun _ hp _ => h.sends.subset hp) fun _ => h.awaiting

theorem Sound.quiet (h : Sound cfg s loose) (hq : Quiet s s') (hw : s'.waiters ⊆ s.waiters)
    (hmarks : ∀ p ∈ s'.sends, p.write.event ∈ s.f.inFlightAcks →
      p.write.event ∈ s'.f.inFlightAcks) : Sound cfg s' loose where
  census := hq.f.census h.census
  known := fun p hp => hq.f.called ▸ h.known p (hq.sends.subset hp)
  sendsNodup := h.sendsNodup.sublist (hq.sends.map _)
  bufferNodup := hq.f.eventBuffer ▸ h.bufferNodup
  apart := fun p hp => hq.f.eventBuffer ▸ h.apart p (hq.sends.subset hp)
  sending := fun p hp hc => hmarks p hp (h.sending p (hq.sends.subset hp) hc)
  once := by
    unfold State.FlushOf
    rw [hq.f.eventBuffer, hq.f.pendingAcks, hq.holder]
    exact h.once
  held := by
    intro e he hc hl
    rw [hq.f.eventBuffer, hq.f.pendingAcks]
    exact (h.held e (hq.f.called ▸ he) hc hl).imp_left hq.f.later.released
  flushing := by
    intro o w ho
    obtain ⟨hf, hfit, hws⟩ := h.flushing o w (hq.holder ▸ ho)
    refine ⟨⟨hq.f.known.mpr hf.known, fun p hp => hf.unsent p (hq.sends.subset hp), ?_, ?_⟩,
      hq.fit hfit, hws⟩
    · rw [hq.f.eventBuffer]
      exact hf.head.imp_right fun hr => ⟨hr.1, fun hc => hq.f.later.released (hr.2 hc)⟩
    · intro hc
      rw [hq.f.pendingAcks]
      exact (hf.pending hc).imp_right fun ha => hq.f.later.acknowledged ha
  resending := by
    intro b rest w ho
    have hr := h.resending b rest w (hq.holder ▸ ho)
    refine ⟨hq.bound hr.toBound, hr.write, hq.f.known.mpr hr.known, ?_⟩
    rw [hq.f.pendingAcks]
    exact hr.owed.imp hq.f.later.unclean
      fun howed e he => (howed e he).imp_left hq.f.later.settled
  waiting := fun o ho => hq.fit (h.waiting o (hw ho))
  recovered := by
    intro r hr hclean e he
    exact hq.f.later.settled (h.recovered r (hq.f.recovered ▸ hr) hclean e he)

/-- A direct send's event is marked only by that send. -/
theorem Sound.clearInFlight (h : Sound cfg s loose) (he : s.f.Known e)
    (hs : ∀ p ∈ s.sends, p.write.event ≠ e) :
    Sound cfg { s with f := s.f.clearInFlight e } loose ∧
      Quiet s { s with f := s.f.clearInFlight e } := by
  have hq : Quiet s { s with f := s.f.clearInFlight e } :=
    ⟨Forwarder.clearInFlight_quiet h.census he, List.Sublist.refl _, rfl⟩
  refine ⟨h.quiet hq (fun _ => id) fun p hp hm => ?_, hq⟩
  obtain ⟨inFlight, hf, hmem⟩ := Forwarder.clearInFlight_spec h.census he
  show p.write.event ∈ (s.f.clearInFlight e).inFlightAcks
  rw [hf]
  exact (hmem _).mpr ⟨hm, hs p hp⟩

theorem State.mem_waitingBinds : b ∈ s.waitingBinds ↔ Owner.bind b ∈ s.waiters := by
  unfold State.waitingBinds
  rw [List.mem_filterMap]
  constructor
  · rintro ⟨o, ho, hob⟩
    cases o with
    | drain e => cases hob
    | bind b' =>
      cases hob
      exact ho
  · exact fun h => ⟨_, h, rfl⟩

theorem State.mem_binds_waiting (h : Owner.bind b ∈ s.waiters) : b ∈ s.binds := by
  have hw := State.mem_waitingBinds.mpr h
  unfold State.binds
  split
  · exact List.mem_cons_of_mem _ hw
  · exact List.mem_cons_of_mem _ hw
  · exact hw

variable {w : Write}

theorem State.mem_binds_flushing (h : s.holder = some (.flushing (.bind b) w)) :
    b ∈ s.binds := by
  simp [State.binds, h]

variable {rest : List AckId}

theorem State.mem_binds_resending (h : s.holder = some (.resending b rest w)) : b ∈ s.binds := by
  simp [State.binds, h]

theorem State.of_mem_binds (h : b ∈ s.binds) : Owner.bind b ∈ s.waiters ∨
    (∃ w, s.holder = some (.flushing (.bind b) w)) ∨
    ∃ rest w, s.holder = some (.resending b rest w) := by
  unfold State.binds at h
  split at h
  next b' w hh =>
    rcases List.mem_cons.mp h with rfl | h
    · exact .inr (.inl ⟨w, hh⟩)
    · exact .inl (State.mem_waitingBinds.mp h)
  next b' rest w hh =>
    rcases List.mem_cons.mp h with rfl | h
    · exact .inr (.inr ⟨rest, w, hh⟩)
    · exact .inl (State.mem_waitingBinds.mp h)
  next => exact .inl (State.mem_waitingBinds.mp h)

theorem Sound.bound (h : Sound cfg s loose) (hb : b ∈ s.binds) : Bound s b := by
  rcases State.of_mem_binds hb with hw | ⟨w, hw⟩ | ⟨rest, w, hw⟩
  · exact Awaiting.toBound (h.waiting _ hw)
  · exact Awaiting.toBound (h.flushing _ _ hw).2.1
  · exact (h.resending _ _ _ hw).toBound

/-- The owner binds and unbinds while no bind is under way. -/
theorem Sound.rebind (h : Sound cfg s) (hb : s.binds = []) (ws : Option Ws) (bound : List Ws) :
    Sound cfg { s with f := { s.f with ws, bound } } := by
  have hnone : ∀ b, b ∉ s.binds := by simp [hb]
  have hfit : ∀ o, (∀ b, o = .bind b → b ∈ s.binds) → Fit cfg s o →
      Fit cfg { s with f := { s.f with ws, bound } } o := by
    intro o hin ho
    cases o with
    | drain e => exact ho
    | bind b => exact absurd (hin b rfl) (hnone b)
  exact { h with
    census := h.census.mono rfl h.census.buffer h.census.pending h.census.inFlight h.census.nodup
    flushing := by
      intro o w ho
      obtain ⟨hf, hfo, hws⟩ := h.flushing o w ho
      refine ⟨{ hf with }, hfit o (fun b hob => ?_) hfo, hws⟩
      exact State.mem_binds_flushing (hob ▸ ho)
    resending := fun b rest w ho => absurd (State.mem_binds_resending ho) (hnone b)
    waiting := fun o ho => hfit o (fun b hob => State.mem_binds_waiting (hob ▸ ho)) (h.waiting o ho) }

theorem Sound.acknowledge (h : Sound cfg s) (k : AckId) :
    Sound cfg { s with f := s.f.acknowledge k } := by
  rcases Forwarder.acknowledge_spec h.census k with heq | ⟨e, he, pending, heq, hmem, hnodup⟩
  · rw [heq]
    exact h
  rw [heq]
  have hlater : s.f.Later
      { s.f with pendingAcks := pending, acknowledged := e :: s.f.acknowledged } :=
    { Forwarder.Later.refl s.f with acknowledged := fun _ hx => List.mem_cons_of_mem _ hx }
  have hgone : ∀ x, x ∈ s.f.pendingAcks → x ∈ pending ∨ x ∈ e :: s.f.acknowledged := by
    intro x hx
    by_cases hxe : x = e
    · exact .inr (by simp [hxe])
    · exact .inl ((hmem x).mpr ⟨hx, hxe⟩)
  have hfit : ∀ o, Fit cfg s o → Fit cfg { s with f :=
      { s.f with pendingAcks := pending, acknowledged := e :: s.f.acknowledged } } o := by
    intro o ho
    refine ho.mono (fun _ => id) (fun _ hp _ => hp) fun b hb => ?_
    refine hb.mono { hb.toBound with } (fun x _ hplace => ?_) hlater
    rcases hplace with hbuf | ⟨hp, hk⟩
    · exact .inr (.inl hbuf)
    · rcases hgone x hp with hp | ha
      · exact .inr (.inr ⟨hp, hk⟩)
      · exact .inl (.inl (.inl ha))
  exact { h with
    census := h.census.mono rfl h.census.buffer
      (fun x hx => h.census.pending x ((hmem x).mp hx).1) h.census.inFlight hnodup
    once := fun x hx hp => h.once x hx ((hmem x).mp hp).1
    held := by
      intro x hx hc hl
      rcases h.held x hx hc hl with hr | hbuf | hp
      · exact .inl (hlater.released hr)
      · exact .inr (.inl hbuf)
      · rcases hgone x hp with hp | ha
        · exact .inr (.inr hp)
        · exact .inl (.inl ha)
    flushing := by
      intro o w ho
      obtain ⟨hf, hfo, hws⟩ := h.flushing o w ho
      refine ⟨{ hf with head := ?_, pending := fun hc => ?_ }, hfit o hfo, hws⟩
      · exact hf.head.imp_right fun hr => ⟨hr.1, fun hc => hlater.released (hr.2 hc)⟩
      · rcases hf.pending hc with hp | ha
        · exact hgone _ hp
        · exact .inr (List.mem_cons_of_mem _ ha)
    resending := by
      intro b rest w ho
      have hr := h.resending b rest w ho
      refine ⟨{ hr.toBound with }, hr.write, hr.known, hr.owed.imp hlater.unclean ?_⟩
      intro howed x hx
      rcases howed x hx with hs | hw | ⟨hp, hk⟩
      · exact .inl (hlater.settled hs)
      · exact .inr (.inl hw)
      · rcases hgone x hp with hp | ha
        · exact .inr (.inr ⟨hp, hk⟩)
        · exact .inl (.inl (.inl ha))
    waiting := fun o ho => hfit o (h.waiting o ho)
    recovered := fun r hr hclean x hx => hlater.settled (h.recovered r hr hclean x hx) }

/-! ## An event in hand -/

/-- An event in hand: no coroutine and no bind counts on finding it anywhere. -/
structure Loose (s : State) (e : Event) : Prop where
  known : s.f.Known e
  unsent : ∀ p ∈ s.sends, p.write.event ≠ e
  unbuffered : e ∉ s.f.eventBuffer
  unflushed : ¬ s.FlushOf e
  unowed : ∀ b ∈ s.binds, e ∉ b.owed

theorem Sound.unclaim (h : Sound cfg s) (he : Loose s e) :
    Sound cfg { s with f := s.f.unclaim e } (some e) := by
  obtain ⟨pending, heq, hmem, hnodup⟩ := Forwarder.unclaim_spec h.census he.known
  rw [heq]
  have hfit : ∀ o, (∀ b, o = .bind b → b ∈ s.binds) → Fit cfg s o →
      Fit cfg { s with f := { s.f with pendingAcks := pending } } o := by
    intro o hin ho
    cases o with
    | drain x => exact ho
    | bind b =>
      refine Awaiting.mono ho { ho.toBound with } (fun x hx hplace => ?_)
        { Forwarder.Later.refl s.f with }
      have hxe : x ≠ e := fun hxe => he.unowed b (hin b rfl) (hxe ▸ hx)
      exact .inr (hplace.imp_right fun hp => ⟨(hmem x).mpr ⟨hp.1, hxe⟩, hp.2⟩)
  exact { h with
    census := h.census.mono rfl h.census.buffer
      (fun x hx => h.census.pending x ((hmem x).mp hx).1) h.census.inFlight hnodup
    once := fun x hx hp => h.once x hx ((hmem x).mp hp).1
    held := by
      intro x hx hc hl
      have hxe : x ≠ e := fun hxe => hl (by rw [hxe])
      refine (h.held x hx hc nofun).imp_right fun hp => hp.imp_right fun hp => ?_
      exact (hmem x).mpr ⟨hp, hxe⟩
    flushing := by
      intro o w ho
      obtain ⟨hf, hfo, hws⟩ := h.flushing o w ho
      have hwe : w.event ≠ e := fun hwe => he.unflushed ⟨o, w, ho, hwe⟩
      refine ⟨{ hf with pending := fun hc => ?_ },
        hfit o (fun b hob => State.mem_binds_flushing (hob ▸ ho)) hfo, hws⟩
      exact (hf.pending hc).imp_left fun hp => (hmem _).mpr ⟨hp, hwe⟩
    resending := by
      intro b rest w ho
      have hr := h.resending b rest w ho
      refine ⟨{ hr.toBound with }, hr.write, hr.known, hr.owed.imp id fun howed x hx => ?_⟩
      have hxe : x ≠ e := fun hxe => he.unowed b (State.mem_binds_resending ho) (hxe ▸ hx)
      exact (howed x hx).imp_right fun hw => hw.imp_right fun hp =>
        ⟨(hmem x).mpr ⟨hp.1, hxe⟩, hp.2⟩
    waiting := fun o ho => hfit o (fun b hob => State.mem_binds_waiting (hob ▸ ho)) (h.waiting o ho) }

/-- The event in hand goes into the buffer; what an overflow drops is released if it
is critical. -/
theorem Sound.bufferEvent (h : Sound cfg s (some e)) (he : Loose s e)
    (hp : e ∉ s.f.pendingAcks) : Sound cfg { s with f := s.f.bufferEvent cfg e } := by
  obtain ⟨rest, evictions, heq, hrest⟩ := Forwarder.bufferEvent_spec cfg s.f e
  rw [heq]
  have hsub : rest.Sublist s.f.eventBuffer := by
    rcases hrest with ⟨hr, -⟩ | ⟨v, hv, -⟩
    · rw [hr]
    · exact hv.sub
  have hkept : s.f.evictions ⊆ evictions := by
    rcases hrest with ⟨-, hev⟩ | ⟨v, -, -, hev⟩
    · rw [hev]
      exact fun _ => id
    · rw [hev]
      exact fun _ hx => List.mem_cons_of_mem _ hx
  have hlater : s.f.Later { s.f with eventBuffer := rest ++ [e], evictions } :=
    { Forwarder.Later.refl s.f with evictions := hkept }
  have hplace : ∀ x ∈ s.f.eventBuffer, x ∈ rest ++ [e] ∨
      (x ∉ rest ++ [e] ∧ (x.isCritical → Forwarder.Released cfg
        { s.f with eventBuffer := rest ++ [e], evictions } x)) := by
    intro x hx
    rcases hrest with ⟨hr, -⟩ | ⟨v, hv, hfull, hev⟩
    · left
      simp [hr, hx]
    · rcases (hv.mem x).mp hx with hin | rfl
      · left
        simp [hin]
      · right
        refine ⟨?_, fun hc => .inr ⟨⟨x, s.f.eventBuffer⟩, ?_, rfl, hfull, hv.critical hc⟩⟩
        · have hxe : x ≠ e := fun hxe => he.unbuffered (hxe ▸ hx)
          simp [hv.gone h.bufferNodup, hxe]
        · show _ ∈ evictions
          rw [hev]
          exact List.mem_cons_self
  have hhead : ∀ x, s.f.eventBuffer.head? = some x → x ∈ rest ++ [e] →
      (rest ++ [e]).head? = some x := by
    intro x hx hin
    have hmem : x ∈ s.f.eventBuffer := List.mem_of_mem_head? hx
    have hxe : x ≠ e := fun hxe => he.unbuffered (hxe ▸ hmem)
    have hxrest : x ∈ rest := by simpa [hxe] using hin
    have hr : rest.head? = some x := by
      rcases hrest with ⟨hr, -⟩ | ⟨v, hv, -⟩
      · rw [hr]
        exact hx
      · exact hv.head x hx fun hxv => hv.gone h.bufferNodup (hxv ▸ hxrest)
    simp [List.head?_append, hr]
  have hfit : ∀ o, Fit cfg s o →
      Fit cfg { s with f := { s.f with eventBuffer := rest ++ [e], evictions } } o := by
    intro o ho
    refine ho.mono (fun _ => id) (fun _ hp _ => hp) fun b hb => ?_
    refine hb.mono { hb.toBound with } (fun x hx hpl => ?_) hlater
    rcases hpl with ⟨hbuf, hw⟩ | hpend
    · rcases hplace x hbuf with hin | ⟨-, hr⟩
      · exact .inr (.inl ⟨hin, hw⟩)
      · exact .inl (.inl (hr (hb.critical x hx).2))
    · exact .inr (.inr hpend)
  exact { h with
    census := by
      refine h.census.mono rfl (fun x hx => ?_) h.census.pending h.census.inFlight h.census.nodup
      rcases List.mem_append.mp hx with hx | hx
      · exact h.census.buffer x (hsub.subset hx)
      · rw [List.mem_singleton.mp hx]
        exact he.known
    bufferNodup := by
      refine List.nodup_append.mpr ⟨h.bufferNodup.sublist hsub, by simp, ?_⟩
      rintro x hx y hy rfl
      rw [List.mem_singleton.mp hy] at hx
      exact he.unbuffered (hsub.subset hx)
    apart := by
      intro p hpm hin
      rcases List.mem_append.mp hin with hin | hin
      · exact h.apart p hpm (hsub.subset hin)
      · exact he.unsent p hpm (List.mem_singleton.mp hin)
    once := by
      intro x hx hxp
      rcases List.mem_append.mp hx with hx | hx
      · exact h.once x (hsub.subset hx) hxp
      · exact absurd hxp (List.mem_singleton.mp hx ▸ hp)
    held := by
      intro x hx hc _
      by_cases hxe : x = e
      · exact .inr (.inl (by simp [hxe]))
      · rcases h.held x hx hc (fun hl => hxe (by simpa using hl.symm)) with hr | hb | hpend
        · exact .inl (hlater.released hr)
        · rcases hplace x hb with hin | ⟨-, hr⟩
          · exact .inr (.inl hin)
          · exact .inl (hr hc)
        · exact .inr (.inr hpend)
    flushing := by
      intro o w ho
      obtain ⟨hf, hfo, hws⟩ := h.flushing o w ho
      have hwe : w.event ≠ e := fun hwe => he.unflushed ⟨o, w, ho, hwe⟩
      refine ⟨{ hf with head := ?_ }, hfit o hfo, hws⟩
      rcases hf.head with hh | ⟨hn, hr⟩
      · rcases hplace w.event (List.mem_of_mem_head? hh) with hin | hout
        · exact .inl (hhead _ hh hin)
        · exact .inr hout
      · refine .inr ⟨fun hin => ?_, fun hc => hlater.released (hr hc)⟩
        rcases List.mem_append.mp hin with hin | hin
        · exact hn (hsub.subset hin)
        · exact hwe (List.mem_singleton.mp hin)
    resending := by
      intro b rest w ho
      have hr := h.resending b rest w ho
      refine ⟨{ hr.toBound with }, hr.write, hr.known, hr.owed.imp hlater.unclean ?_⟩
      exact fun howed x hx => (howed x hx).imp_left hlater.settled
    waiting := fun o ho => hfit o (h.waiting o ho)
    recovered := fun r hr hclean x hx => hlater.settled (h.recovered r hr hclean x hx) }

/-- The event in hand is dropped: it is not one that the forwarder must hold. -/
theorem Sound.drop (h : Sound cfg s (some e))
    (hdone : (e, true) ∈ s.f.called → e.isCritical →
      s.f.Released cfg e ∨ e ∈ s.f.eventBuffer ∨ e ∈ s.f.pendingAcks) : Sound cfg s := by
  refine { h with held := fun x hx hc _ => ?_ }
  by_cases hxe : x = e
  · subst hxe
    exact hdone hx hc
  · exact h.held x hx hc fun hl => hxe (by simpa using hl.symm)

theorem Loose.quiet (h : Loose s e) (hq : Quiet s s') (hw : s'.waiters = s.waiters) :
    Loose s' e where
  known := hq.f.known.mpr h.known
  unsent := fun p hp => h.unsent p (hq.sends.subset hp)
  unbuffered := hq.f.eventBuffer ▸ h.unbuffered
  unflushed := by
    unfold State.FlushOf
    rw [hq.holder]
    exact h.unflushed
  unowed := by
    unfold State.binds State.waitingBinds
    rw [hq.holder, hw]
    exact h.unowed

/-- An attempt that did not succeed leaves its event in the buffer, or nowhere. -/
theorem Sound.rebuffer (h : Sound cfg s) (he : Loose s e) {buffered : Bool}
    (hflag : (e, buffered) ∈ s.f.called) :
    Sound cfg { s with f := s.f.rebuffer cfg e buffered } := by
  have hun := h.unclaim he
  obtain ⟨pending, heq, hmem, -⟩ := Forwarder.unclaim_spec h.census he.known
  have hgone : e ∉ (s.f.unclaim e).pendingAcks := by
    rw [heq]
    exact fun hin => ((hmem e).mp hin).2 rfl
  unfold Forwarder.rebuffer
  split
  next =>
    refine hun.bufferEvent ?_ hgone
    rw [heq]
    exact { he with }
  next hno =>
    refine hun.drop fun hin hc => ?_
    rw [heq] at hin ⊢
    have hb : buffered = true := by
      have := h.census.distinct _ hflag _ hin rfl
      exact congrArg Prod.snd this
    have hpend : e ∉ s.f.pendingAcks := fun hp =>
      hno ⟨hb, (h.census.replayable_iff he.known).mpr (.inr hp)⟩
    rcases h.held e hin hc nofun with hr | hbuf | hp
    · exact .inl hr
    · exact absurd hbuf he.unbuffered
    · exact absurd hp hpend

/-! ### Calls of `send` -/

/-- What `send` is promised about its event: its number, and an ackId of its own. -/
structure Fresh (s : State) (e : Event) : Prop where
  number : e.call = s.f.called.length
  keyed : ∀ p ∈ s.f.called, p.1.ackKey ≠ none → p.1.ackKey ≠ e.ackKey
  critical : e.isCritical → e.ackKey ≠ none

theorem Fresh.unknown (h : Fresh s e) (hc : s.f.Census) : ¬ s.f.Known e := by
  rintro ⟨bf, hk⟩
  have := hc.numbered _ hk
  rw [h.number] at this
  omega

/-- The state in which `send` has made its event. -/
def State.withCall (s : State) (e : Event) (buffered : Bool) : State :=
  { s with f := { s.f with called := (e, buffered) :: s.f.called } }

theorem Fresh.census (h : Fresh s e) (hc : s.f.Census) (buffered : Bool) :
    (s.withCall e buffered).f.Census := by
  have hknown : ∀ {x}, s.f.Known x → (s.withCall e buffered).f.Known x :=
    fun ⟨bf, hk⟩ => ⟨bf, List.mem_cons_of_mem _ hk⟩
  refine ⟨?_, ?_, ?_, ?_, fun x hx => hknown (hc.buffer x hx),
    fun x hx => (hc.pending x hx).imp_left hknown,
    fun x hx => (hc.inFlight x hx).imp_left hknown, hc.nodup⟩
  · intro p hp
    simp only [State.withCall, List.length_cons]
    rcases List.mem_cons.mp hp with rfl | hp
    · rw [h.number]
      omega
    · have := hc.numbered p hp
      omega
  · intro p hp q hq hpq
    rcases List.mem_cons.mp hp with rfl | hp <;> rcases List.mem_cons.mp hq with rfl | hq
    · rfl
    · have := hc.numbered q hq
      rw [h.number] at hpq
      omega
    · have := hc.numbered p hp
      rw [h.number] at hpq
      omega
    · exact hc.distinct p hp q hq hpq
  · intro p hp q hq hn hpq
    rcases List.mem_cons.mp hp with rfl | hp <;> rcases List.mem_cons.mp hq with rfl | hq
    · rfl
    · exact absurd hpq.symm (h.keyed q hq (hpq ▸ hn))
    · exact absurd hpq (h.keyed p hp hn)
    · exact hc.keyed p hp q hq hn hpq
  · intro p hp
    rcases List.mem_cons.mp hp with rfl | hp
    · exact h.critical
    · exact hc.critical p hp

theorem Sound.withCall (h : Sound cfg s) (he : Fresh s e) (buffered : Bool) :
    Sound cfg (s.withCall e buffered) (some e) := by
  have hcalled : s.f.called ⊆ (s.withCall e buffered).f.called :=
    fun _ hx => List.mem_cons_of_mem _ hx
  have hlater : s.f.Later (s.withCall e buffered).f := { Forwarder.Later.refl s.f with }
  have hbound : ∀ b, Bound s b → Bound (s.withCall e buffered) b := fun b hb =>
    hb.mono (.inl rfl) (fun _ => id) hcalled fun _ hp _ _ _ => hp
  have hfit : ∀ o, Fit cfg s o → Fit cfg (s.withCall e buffered) o := fun o ho =>
    ho.mono hcalled (fun _ hp _ => hp) fun b hb =>
      hb.mono (hbound b hb.toBound) (fun _ _ hplace => .inr hplace) hlater
  have hknown : ∀ {x}, s.f.Known x → (s.withCall e buffered).f.Known x :=
    fun ⟨bf, hk⟩ => ⟨bf, hcalled hk⟩
  exact { h with
    census := he.census h.census buffered
    known := fun p hp => hcalled (h.known p hp)
    held := by
      intro x hx hc hl
      rcases List.mem_cons.mp hx with hx | hx
      · cases hx
        exact absurd rfl hl
      · exact h.held x hx hc nofun
    flushing := by
      intro o w ho
      obtain ⟨hf, hfo, hws⟩ := h.flushing o w ho
      exact ⟨{ hf with known := hknown hf.known }, hfit o hfo, hws⟩
    resending := by
      intro b rest w ho
      have hr := h.resending b rest w ho
      exact ⟨hbound b hr.toBound, hr.write, hknown hr.known, hr.owed⟩
    waiting := fun o ho => hfit o (h.waiting o ho) }

theorem Fresh.inHand (he : Fresh s e) (h : Sound cfg s) (buffered : Bool) :
    Loose (s.withCall e buffered) e where
  known := ⟨buffered, List.mem_cons_self⟩
  unsent := fun p hp hpe => he.unknown h.census (hpe ▸ ⟨_, h.known p hp⟩)
  unbuffered := fun hin => he.unknown h.census (h.census.buffer e hin)
  unflushed := by
    rintro ⟨o, w, ho, rfl⟩
    exact he.unknown h.census (h.flushing o w ho).1.known
  unowed := fun b hb hin => he.unknown h.census ((h.bound hb).critical e hin).1

theorem Fresh.not_pending (he : Fresh s e) (h : s.f.Census) : e ∉ s.f.pendingAcks :=
  fun hin => he.unknown h (h.pending e hin).1

/-- The state in which a direct send is parked on its write. -/
def State.withSend (s : State) (e : Event) (buffered : Bool) (ws : Ws) : State :=
  { s with
    f := ((s.withCall e buffered).f.claim e).beginWrite
    sends := s.sends ++ [⟨⟨s.f.writes, e, ws⟩, buffered⟩] }

/-- A direct send parks with its event pending and marked in flight. -/
theorem Sound.withSend (h : Sound cfg s) (he : Fresh s e) (buffered : Bool) (ws : Ws) :
    Sound cfg (s.withSend e buffered ws) := by
  have hcensus := he.census h.census buffered
  have hknown : (s.withCall e buffered).f.Known e := ⟨buffered, List.mem_cons_self⟩
  obtain ⟨pending, inFlight, heq, hmem, hin, hnodup⟩ := Forwarder.claim_spec hcensus hknown
  have hnew : ∀ x, s.f.Known x → x ≠ e := fun x hx hxe => he.unknown h.census (hxe ▸ hx)
  unfold State.withSend
  rw [heq]
  -- Every coroutine relies on events that were known before this call.
  have hgrow : ∀ x ∈ s.f.pendingAcks, x ∈ pending := fun x hx => (hmem x).mpr (.inl hx)
  have hsends : ∀ p ∈ s.sends ++ [(⟨⟨s.f.writes, e, ws⟩, buffered⟩ : Sending)],
      s.f.Known p.write.event → p ∈ s.sends := by
    intro p hp hk
    rcases List.mem_append.mp hp with hp | hp
    · exact hp
    · rw [List.mem_singleton.mp hp] at hk
      exact absurd rfl (hnew _ hk)
  have hcalled : s.f.called ⊆ (s.withCall e buffered).f.called :=
    fun _ hx => List.mem_cons_of_mem _ hx
  obtain ⟨t, ht⟩ : ∃ t : State, t = { s with
      f := Forwarder.beginWrite
        { (s.withCall e buffered).f with pendingAcks := pending, inFlightAcks := inFlight }
      sends := s.sends ++ [⟨⟨s.f.writes, e, ws⟩, buffered⟩] } := ⟨_, rfl⟩
  have hlater : s.f.Later t.f := by
    rw [ht]
    exact { Forwarder.Later.refl s.f with }
  have hbound : ∀ b, Bound s b → Bound t b := by
    intro b hb
    rw [ht]
    refine hb.mono (.inl rfl) (fun _ => id) hcalled fun p hp x hx hpx => ?_
    exact hsends p hp (hpx ▸ (hb.critical x hx).1)
  have hfit : ∀ o, Fit cfg s o → Fit cfg t o := by
    intro o ho
    refine ho.mono (by rw [ht]; exact hcalled) (by rw [ht]; exact hsends) fun b hb => ?_
    refine hb.mono (hbound b hb.toBound) (fun x _ hplace => ?_) hlater
    rw [ht]
    exact .inr (hplace.imp_right fun hp => ⟨hgrow x hp.1, hp.2⟩)
  rw [← ht]
  have hapart : ∀ p ∈ s.sends, p.write.event ≠ e := fun p hp => hnew _ ⟨_, h.known p hp⟩
  have hbuffer : ∀ x ∈ s.f.eventBuffer, x ≠ e := fun x hx => hnew _ (h.census.buffer x hx)
  refine
    { census := ?_, known := ?_, sendsNodup := ?_, bufferNodup := ?_, apart := ?_, sending := ?_,
      once := ?_, held := ?_, flushing := ?_, resending := ?_, waiting := ?_, recovered := ?_ }
  · rw [ht]
    refine hcensus.mono rfl hcensus.buffer (fun x hx => ?_) (fun x hx => ?_) hnodup
    · rcases (hmem x).mp hx with hx | ⟨hxe, hc⟩
      · exact hcensus.pending x hx
      · exact ⟨hxe ▸ hknown, hxe ▸ hc⟩
    · rcases (hin x).mp hx with hx | ⟨hxe, hc⟩
      · exact hcensus.inFlight x hx
      · exact ⟨hxe ▸ hknown, hxe ▸ hc⟩
  · rw [ht]
    intro p hp
    rcases List.mem_append.mp hp with hp | hp
    · exact hcalled (h.known p hp)
    · rw [List.mem_singleton.mp hp]
      exact List.mem_cons_self
  · rw [ht]
    simp only [List.map_append, List.map_cons, List.map_nil]
    refine List.nodup_append.mpr ⟨h.sendsNodup, by simp, ?_⟩
    rintro x hx y hy rfl
    obtain ⟨p, hp, rfl⟩ := List.mem_map.mp hx
    exact hapart p hp (List.mem_singleton.mp hy)
  · rw [ht]
    exact h.bufferNodup
  · rw [ht]
    intro p hp hb
    rcases List.mem_append.mp hp with hp | hp
    · exact h.apart p hp hb
    · rw [List.mem_singleton.mp hp] at hb
      exact hbuffer e hb rfl
  · rw [ht]
    intro p hp hc
    rcases List.mem_append.mp hp with hp | hp
    · exact (hin _).mpr (.inl (h.sending p hp hc))
    · have hpe : p.write.event = e := by rw [List.mem_singleton.mp hp]
      exact (hin _).mpr (.inr ⟨hpe, hpe ▸ hc⟩)
  · rw [ht]
    intro x hx hp
    rcases (hmem x).mp hp with hp | ⟨hxe, -⟩
    · exact h.once x hx hp
    · exact absurd hxe (hbuffer x hx)
  · rw [ht]
    intro x hx hc _
    rcases List.mem_cons.mp hx with hx | hx
    · cases hx
      exact .inr (.inr ((hmem _).mpr (.inr ⟨rfl, hc⟩)))
    · exact (h.held x hx hc nofun).imp_right fun hp => hp.imp_right (hgrow x)
  · intro o w ho
    rw [ht] at ho
    obtain ⟨hf, hfo, hws⟩ := h.flushing o w ho
    refine ⟨⟨?_, ?_, ?_, ?_⟩, hfit o hfo, hws⟩
    · rw [ht]
      exact hf.known.imp fun _ hk => hcalled hk
    · rw [ht]
      exact fun p hp hpe => hf.unsent p (hsends p hp (hpe ▸ hf.known)) hpe
    · rw [ht]
      exact hf.head
    · rw [ht]
      exact fun hc => (hf.pending hc).imp_left (hgrow _)
  · intro b rest w ho
    rw [ht] at ho
    have hr := h.resending b rest w ho
    refine ⟨hbound b hr.toBound, hr.write, ?_, hr.owed.imp hlater.unclean fun howed x hx => ?_⟩
    · rw [ht]
      exact hr.known.imp fun _ hk => hcalled hk
    · rw [ht]
      exact (howed x hx).imp_right fun hw => hw.imp_right fun hp => ⟨hgrow x hp.1, hp.2⟩
  · rw [ht]
    rw [ht] at hfit
    exact fun o ho => hfit o (h.waiting o ho)
  · rw [ht]
    exact h.recovered

/-! ## The end of a direct write -/

theorem Sound.unsend (h : Sound cfg s) {i : Nat} {p : Sending} (hp : s.sends[i]? = some p) :
    Sound cfg { s with sends := s.sends.eraseIdx i } ∧
      Loose { s with sends := s.sends.eraseIdx i } p.write.event := by
  have hmem : p ∈ s.sends := List.mem_of_getElem? hp
  have hq : Quiet s { s with sends := s.sends.eraseIdx i } :=
    ⟨.refl s.f, List.eraseIdx_sublist _ _, rfl⟩
  refine ⟨h.quiet hq (fun _ => id) fun _ _ => id, ⟨⟨_, h.known p hmem⟩, ?_, h.apart p hmem, ?_, ?_⟩⟩
  · intro q hqm hqe
    have hpair : s.sends.Pairwise fun x y => x.write.event ≠ y.write.event :=
      List.pairwise_map.mp h.sendsNodup
    rcases mem_advance_pairwise (fun _ _ hne => hne.symm) hpair hp (o := none) hqm with
      hn | ⟨-, hne⟩
    · cases hn
    · exact hne hqe.symm
  · rintro ⟨o, w, ho, hwe⟩
    exact (h.flushing o w ho).1.unsent p hmem hwe.symm
  · intro b hb hin
    exact (h.bound hb).unsent _ hin p hmem rfl

/-! ## Recovery -/

theorem Bound.openWs (hb : Bound s b) {c : Ws} (h : s.f.openWs = some c) : c = b.ws := by
  have hws := (Forwarder.openWs_some h).1
  rcases hb.ws with hb | ⟨hb, -⟩
  · rw [hb] at hws
    exact (Option.some.inj hws).symm
  · rw [hb] at hws
    cases hws

theorem Bound.unclean (hb : Bound s b) (h : s.f.openWs = none) : s.f.Unclean b.ws := by
  left
  rcases hb.ws with hb | ⟨-, he⟩
  · exact Forwarder.openWs_none h _ hb
  · simp [Forwarder.isOpen, he]

/-- A flush parks on the head of the buffer. -/
theorem Sound.startFlush (h : Sound cfg s) (hfree : s.holder = none) (ho : Fit cfg s o)
    {rest : List Event} {c : Ws} (hb : s.f.eventBuffer = e :: rest) (hw : s.f.openWs = some c) :
    Sound cfg { s with
      f := (s.f.claim e).beginWrite
      holder := some (.flushing o ⟨s.f.writes, e, c⟩) } := by
  have hbuf : e ∈ s.f.eventBuffer := by simp [hb]
  have hknown : s.f.Known e := h.census.buffer e hbuf
  obtain ⟨pending, inFlight, heq, hmem, hin, hnodup⟩ := Forwarder.claim_spec h.census hknown
  rw [heq]
  have hgrow : ∀ x ∈ s.f.pendingAcks, x ∈ pending := fun x hx => (hmem x).mpr (.inl hx)
  have hunsent : ∀ p ∈ s.sends, p.write.event ≠ e := fun p hp hpe => h.apart p hp (hpe ▸ hbuf)
  have hfit : ∀ o', Fit cfg s o' → Fit cfg { s with
      f := Forwarder.beginWrite { s.f with pendingAcks := pending, inFlightAcks := inFlight }
      holder := some (.flushing o ⟨s.f.writes, e, c⟩) } o' := by
    intro o' ho'
    refine ho'.mono (fun _ => id) (fun _ hp _ => hp) fun b hb' => ?_
    refine hb'.mono { hb'.toBound with } (fun x _ hplace => ?_) { Forwarder.Later.refl s.f with }
    refine .inr (hplace.imp (fun hx => ⟨hx.1, ?_⟩) fun hp => ⟨hgrow x hp.1, hp.2⟩)
    rintro _ _ hw' -
    cases hw'
    exact hb'.toBound.openWs hw
  exact { h with
    census := by
      refine h.census.mono rfl h.census.buffer (fun x hx => ?_) (fun x hx => ?_) hnodup
      · rcases (hmem x).mp hx with hx | ⟨hxe, hc⟩
        · exact h.census.pending x hx
        · exact ⟨hxe ▸ hknown, hxe ▸ hc⟩
      · rcases (hin x).mp hx with hx | ⟨hxe, hc⟩
        · exact h.census.inFlight x hx
        · exact ⟨hxe ▸ hknown, hxe ▸ hc⟩
    sending := fun p hp hc => (hin _).mpr (.inl (h.sending p hp hc))
    once := by
      intro x hx hp
      rcases (hmem x).mp hp with hp | ⟨hxe, -⟩
      · obtain ⟨o', w', ho', -⟩ := h.once x hx hp
        rw [hfree] at ho'
        cases ho'
      · exact ⟨o, _, rfl, hxe.symm⟩
    held := fun x hx hc hl =>
      (h.held x hx hc hl).imp_right fun hp => hp.imp_right (hgrow x)
    flushing := by
      intro o' w' ho'
      cases ho'
      have hhead : s.f.eventBuffer.head? = some e := by simp [hb]
      refine ⟨⟨hknown, hunsent, .inl hhead, ?_⟩, hfit o ho, ?_⟩
      · exact fun hc => .inl ((hmem e).mpr (.inr ⟨rfl, hc⟩))
      · rintro b rfl
        exact (Awaiting.toBound ho).openWs hw
    resending := by
      intro _ _ _ ho'
      cases ho'
    waiting := fun o' ho' => hfit o' (h.waiting o' ho') }

theorem Sound.bindDone (h : Sound cfg s)
    (hdone : s.f.Unclean b.ws ∨ ∀ e ∈ b.owed, s.f.Settled cfg b.ws e) :
    Sound cfg { s with f := s.f.bindDone b } := by
  refine { h with census := ?_, flushing := ?_, resending := ?_, waiting := ?_, recovered := ?_ }
  · exact h.census.mono rfl h.census.buffer h.census.pending h.census.inFlight h.census.nodup
  · intro o w ho
    obtain ⟨hf, hfo, hws⟩ := h.flushing o w ho
    refine ⟨{ hf with }, ?_, hws⟩
    cases o with
    | drain x => exact hfo
    | bind b' => exact { hfo with }
  · intro b' rest w ho
    exact { h.resending b' rest w ho with }
  · intro o ho
    cases o with
    | drain x => exact h.waiting _ ho
    | bind b' => exact { (h.waiting _ ho : Awaiting cfg s b') with }
  · intro r hr hclean
    rcases List.mem_cons.mp hr with rfl | hr
    · rcases hdone with hu | hd
      · rcases hu with hu | hu
        · simp [hu] at hclean
        · simp [hu] at hclean
      · exact hd
    · exact h.recovered r hr hclean

/-- The resend goes on to its next write, or the bind returns. -/
theorem Sound.resendPending (h : Sound cfg s) (hfree : s.holder = none)
    (hr : Remaining cfg s b rest) : Sound cfg (s.resendPending b rest) := by
  induction rest with
  | nil =>
    refine h.bindDone (hr.owed.imp_right fun howed e he => ?_)
    rcases howed e he with hs | ⟨-, k, hk, -⟩
    · exact hs
    · cases hk
  | cons k rest ih =>
    unfold State.resendPending
    split
    next hnone =>
      refine ih { hr.toBound with owed := hr.owed.imp_right fun howed e he => ?_ }
      refine (howed e he).imp_right ?_
      rintro ⟨hp, k', hk', hek⟩
      rcases List.mem_cons.mp hk' with rfl | hk'
      · exact absurd hek (lookup_none.mp hnone e hp)
      · exact ⟨hp, k', hk', hek⟩
    next x hx =>
      obtain ⟨hxp, hxk⟩ := lookup_some hx
      split
      next hws => exact h.bindDone (.inl (hr.toBound.unclean hws))
      next c hc =>
        have hfit : ∀ o, Fit cfg s o → Fit cfg { s with
            f := s.f.beginWrite, holder := some (.resending b rest ⟨s.f.writes, x, c⟩) } o := by
          intro o ho
          refine ho.mono (fun _ => id) (fun _ hp _ => hp) fun b' hb' => ?_
          refine hb'.mono { hb'.toBound with } (fun y _ hplace => ?_)
            { Forwarder.Later.refl s.f with }
          refine .inr (hplace.imp_left fun hy => ⟨hy.1, ?_⟩)
          intro _ _ ho
          cases ho
        exact { h with
          census := h.census.mono rfl h.census.buffer h.census.pending h.census.inFlight
            h.census.nodup
          once := by
            intro y hy hp
            obtain ⟨o, w, ho, -⟩ := h.once y hy hp
            rw [hfree] at ho
            cases ho
          flushing := by
            intro _ _ ho
            cases ho
          resending := by
            rintro b' rest' w' ho
            cases ho
            refine ⟨{ hr.toBound with }, hr.toBound.openWs hc, (h.census.pending x hxp).1, ?_⟩
            refine hr.owed.imp id fun howed e he => (howed e he).imp_right ?_
            rintro ⟨hp, k', hk', hek⟩
            rcases List.mem_cons.mp hk' with rfl | hk'
            · exact .inl (h.census.eq_of_ackKey (h.census.pending e hp).1
                (h.census.pending x hxp).1 hek hxk)
            · exact .inr ⟨hp, k', hk', hek⟩
          waiting := fun o ho => hfit o (h.waiting o ho) }

theorem Sound.flushed (h : Sound cfg s) (hfree : s.holder = none) (ho : Fit cfg s o)
    (hend : ∀ b, o = .bind b → s.f.eventBuffer = [] ∨ s.f.Unclean b.ws) :
    Sound cfg (s.flushed o) := by
  cases o with
  | drain e => exact (h.clearInFlight ho.1 ho.2).1
  | bind b =>
    have hb : Awaiting cfg s b := ho
    refine h.resendPending hfree { hb.toBound with owed := ?_ }
    rcases hend b rfl with hnil | hu
    · refine .inr fun e he => ?_
      rcases hb.owed e he with hs | ⟨hin, -⟩ | ⟨hp, k, hk, hek⟩
      · exact .inl hs
      · rw [hnil] at hin
        cases hin
      · refine .inr ⟨hp, k, List.mem_filter.mpr ⟨hk, ?_⟩, hek⟩
        cases hl : lookup s.f.pendingAcks k with
        | none => exact absurd hek (lookup_none.mp hl e hp)
        | some x => rfl
    · exact .inl hu

theorem Sound.flushBuffer (h : Sound cfg s) (hfree : s.holder = none) (ho : Fit cfg s o) :
    Sound cfg (s.flushBuffer o) := by
  unfold State.flushBuffer
  split
  next e rest c hb hw => exact h.startFlush hfree ho hb hw
  next hno =>
    refine h.flushed hfree ho ?_
    rintro b rfl
    cases hb : s.f.eventBuffer with
    | nil => exact .inl rfl
    | cons e rest =>
      cases hw : s.f.openWs with
      | none => exact .inr ((Awaiting.toBound ho).unclean hw)
      | some c => exact absurd hw (hno e rest c hb)

theorem Sound.acquire (h : Sound cfg s) (ho : Fit cfg s o) : Sound cfg (s.acquire o) := by
  unfold State.acquire
  split
  next hfree => exact h.flushBuffer hfree.1 ho
  next =>
    have hfit : ∀ o', Fit cfg s o' → Fit cfg { s with waiters := s.waiters ++ [o] } o' :=
      fun o' ho' => ho'.mono (fun _ => id) (fun _ hp _ => hp) fun b hb =>
        hb.mono { hb.toBound with } (fun _ _ hplace => .inr hplace) (.refl _)
    exact { h with
      flushing := by
        intro o' w ho'
        obtain ⟨hf, hfo, hws⟩ := h.flushing o' w ho'
        exact ⟨{ hf with }, hfit o' hfo, hws⟩
      resending := fun b rest w hr => { h.resending b rest w hr with }
      waiting := by
        intro o' ho'
        rcases List.mem_append.mp ho' with ho' | ho'
        · exact hfit o' (h.waiting o' ho')
        · rw [List.mem_singleton.mp ho']
          exact hfit o ho }

/-! ### The end of a recovery write -/

/-- The head leaves the buffer once nothing is owed for it on this connection. -/
theorem Sound.popHead (h : Sound cfg s) (hh : s.holder = some (.flushing o w))
    (hset : s.f.Settled cfg w.ws w.event) :
    Sound cfg { s with f := s.f.popHead w.event, holder := none } ∧
      Fit cfg { s with f := s.f.popHead w.event, holder := none } o := by
  obtain ⟨hf, hfo, -⟩ := h.flushing o w hh
  obtain ⟨rest, heq, hsub, hmem⟩ := Forwarder.popHead_spec rfl h.bufferNodup
    (hf.head.imp_right And.left)
  rw [heq]
  have hfit : ∀ o', Fit cfg s o' → Fit cfg { s with
      f := { s.f with eventBuffer := rest }, holder := none } o' := by
    intro o' ho'
    refine ho'.mono (fun _ => id) (fun _ hp _ => hp) fun b hb => ?_
    refine hb.mono { hb.toBound with } (fun x _ hplace => ?_) { Forwarder.Later.refl s.f with }
    rcases hplace with ⟨hx, hw⟩ | hp
    · by_cases hxw : x = w.event
      · left
        rw [hxw, ← hw o w hh hxw.symm]
        exact hset
      · refine .inr (.inl ⟨(hmem x).mpr ⟨hx, hxw⟩, ?_⟩)
        intro _ _ ho
        cases ho
    · exact .inr (.inr hp)
  refine ⟨{ h with
    census := h.census.mono rfl (fun x hx => h.census.buffer x ((hmem x).mp hx).1)
      h.census.pending h.census.inFlight h.census.nodup
    bufferNodup := h.bufferNodup.sublist hsub
    apart := fun p hp hin => h.apart p hp ((hmem _).mp hin).1
    once := by
      intro x hx hp
      obtain ⟨o', w', ho', hwx⟩ := h.once x ((hmem x).mp hx).1 hp
      rw [hh] at ho'
      cases ho'
      exact absurd hwx.symm ((hmem x).mp hx).2
    held := by
      intro x hx hc hl
      rcases h.held x hx hc hl with hr | hb | hp
      · exact .inl hr
      · by_cases hxw : x = w.event
        · rcases hf.pending (hxw ▸ hc) with hp | ha
          · exact .inr (.inr (hxw ▸ hp))
          · exact .inl (.inl (hxw ▸ ha))
        · exact .inr (.inl ((hmem x).mpr ⟨hb, hxw⟩))
      · exact .inr (.inr hp)
    flushing := by
      intro _ _ ho
      cases ho
    resending := by
      intro _ _ _ ho
      cases ho
    waiting := fun o' ho' => hfit o' (h.waiting o' ho') }, hfit o hfo⟩

/-- The head stays in the buffer, and is pending no longer. -/
theorem Sound.unclaimFlush (h : Sound cfg s) (hh : s.holder = some (.flushing o w)) :
    Sound cfg { s with f := s.f.unclaim w.event, holder := none } ∧
      Fit cfg { s with f := s.f.unclaim w.event, holder := none } o := by
  obtain ⟨hf, hfo, -⟩ := h.flushing o w hh
  obtain ⟨pending, heq, hmem, hnodup⟩ := Forwarder.unclaim_spec h.census hf.known
  rw [heq]
  have hplace : w.event.isCritical → s.f.Released cfg w.event ∨ w.event ∈ s.f.eventBuffer := by
    intro hc
    rcases hf.head with hhead | ⟨-, hr⟩
    · exact .inr (List.mem_of_mem_head? hhead)
    · exact .inl (hr hc)
  have hfit : ∀ o', Fit cfg s o' → Fit cfg { s with
      f := { s.f with pendingAcks := pending }, holder := none } o' := by
    intro o' ho'
    refine ho'.mono (fun _ => id) (fun _ hp _ => hp) fun b hb => ?_
    refine hb.mono { hb.toBound with } (fun x hx hpl => ?_) { Forwarder.Later.refl s.f with }
    have hnone : ∀ o w', (none : Option Recovery) = some (.flushing o w') → w'.event = x →
        w'.ws = b.ws := by
      intro _ _ ho
      cases ho
    rcases hpl with ⟨hx, -⟩ | ⟨hp, hk⟩
    · exact .inr (.inl ⟨hx, hnone⟩)
    · by_cases hxw : x = w.event
      · rcases hplace (hxw ▸ (hb.critical x hx).2) with hr | hin
        · exact .inl (.inl (hxw ▸ hr))
        · exact .inr (.inl ⟨hxw ▸ hin, hnone⟩)
      · exact .inr (.inr ⟨(hmem x).mpr ⟨hp, hxw⟩, hk⟩)
  refine ⟨{ h with
    census := h.census.mono rfl h.census.buffer
      (fun x hx => h.census.pending x ((hmem x).mp hx).1) h.census.inFlight hnodup
    once := by
      intro x hx hp
      obtain ⟨o', w', ho', hwx⟩ := h.once x hx ((hmem x).mp hp).1
      rw [hh] at ho'
      cases ho'
      exact absurd hwx.symm ((hmem x).mp hp).2
    held := by
      intro x hx hc hl
      rcases h.held x hx hc hl with hr | hb | hp
      · exact .inl hr
      · exact .inr (.inl hb)
      · by_cases hxw : x = w.event
        · rcases hplace (hxw ▸ hc) with hr | hin
          · exact .inl (hxw ▸ hr)
          · exact .inr (.inl (hxw ▸ hin))
        · exact .inr (.inr ((hmem x).mpr ⟨hp, hxw⟩))
    flushing := by
      intro _ _ ho
      cases ho
    resending := by
      intro _ _ _ ho
      cases ho
    waiting := fun o' ho' => hfit o' (h.waiting o' ho') }, hfit o hfo⟩

theorem Sound.unclaimHead (h : Sound cfg s) (hh : s.holder = some (.flushing o w)) :
    Sound cfg { s with f := s.f.unclaimHead w.event, holder := none } ∧
      Fit cfg { s with f := s.f.unclaimHead w.event, holder := none } o := by
  have hf := (h.flushing o w hh).1
  unfold Forwarder.unclaimHead
  split
  next => exact h.unclaimFlush hh
  next hno =>
    -- A critical event that is not pending any more was acknowledged meanwhile.
    rw [h.census.replayable_iff hf.known, not_or, Bool.not_eq_false] at hno
    refine h.popHead hh (.inl (.inl ?_))
    exact (hf.pending hno.1).resolve_left hno.2

theorem Sound.forwarder {f' : Forwarder} (h : Sound cfg s) (hq : s.f.Quiet f')
    (hmarks : f'.inFlightAcks = s.f.inFlightAcks) : Sound cfg { s with f := f' } :=
  h.quiet ⟨hq, List.Sublist.refl _, rfl⟩ (fun _ => id) fun _ _ hm => hmarks ▸ hm

theorem Fit.forwarder {f' : Forwarder} (h : Fit cfg s o) (hq : s.f.Quiet f') :
    Fit cfg { s with f := f' } o :=
  Quiet.fit ⟨hq, List.Sublist.refl _, rfl⟩ h

theorem Sound.abandon (h : Sound cfg s) (ho : Fit cfg s o) : Sound cfg (s.abandon o) := by
  cases o with
  | drain e => exact (h.clearInFlight ho.1 ho.2).1
  | bind b => exact h

theorem Forwarder.endWrite_marks (f : Forwarder) (w : Write) (outcome : Outcome) :
    (f.endWrite w outcome).inFlightAcks = f.inFlightAcks := by
  cases outcome <;> rfl

theorem Forwarder.rebindDeadline_marks (f : Forwarder) :
    f.rebindDeadline.inFlightAcks = f.inFlightAcks := by
  unfold Forwarder.rebindDeadline
  split <;> rfl

theorem Sound.headWritten (h : Sound cfg s) (hh : s.holder = some (.flushing o w)) :
    Sound cfg (s.headWritten w) ∧ Fit cfg (s.headWritten w) o := by
  have hended := h.forwarder (Forwarder.endWrite_quiet s.f w .ok)
    (Forwarder.endWrite_marks s.f w .ok)
  have hf := (hended.flushing o w hh).1
  have hclear := hended.clearInFlight hf.known hf.unsent
  have hwritten : (s.f.endWrite w .ok).Settled cfg w.ws w.event :=
    .inr ⟨w, List.mem_cons_self, rfl, rfl⟩
  exact hclear.1.popHead hh (hclear.2.f.later.settled hwritten)

theorem Sound.headKept (h : Sound cfg s) (hh : s.holder = some (.flushing o w)) (outcome : Outcome)
    (hout : outcome ≠ .ok) :
    Sound cfg (s.headKept w outcome) ∧ Fit cfg (s.headKept w outcome) o ∧
      w.ws ∈ (s.headKept w outcome).f.unwritten := by
  have hended := h.forwarder (Forwarder.endWrite_quiet s.f w outcome)
    (Forwarder.endWrite_marks s.f w outcome)
  have hf := (hended.flushing o w hh).1
  obtain ⟨hcalled, hlater⟩ := (s.f.endWrite w outcome).unclaimHead_frame w.event
  have hknown : ((s.f.endWrite w outcome).unclaimHead w.event).Known w.event :=
    hf.known.imp fun _ hk => hcalled ▸ hk
  have hin := hlater.unwritten (s.f.endWrite_unwritten w hout)
  obtain ⟨hun, hfun⟩ := hended.unclaimHead hh
  cases outcome with
  | ok => exact absurd rfl hout
  | failed | timedOut =>
    have hclear := hun.clearInFlight hknown hf.unsent
    exact ⟨hclear.1, hclear.2.fit hfun, hclear.2.f.later.unwritten hin⟩
  | cancelled | deadline =>
    have hq := fun f => Forwarder.cancelledWriteWs_quiet f (some w.ws)
    have hclear := (hun.forwarder (hq _) rfl).clearInFlight hknown hf.unsent
    exact ⟨hclear.1, hclear.2.fit (hfun.forwarder (hq _)), hclear.2.f.later.unwritten hin⟩

theorem Sound.settleFlush (h : Sound cfg s) (hh : s.holder = some (.flushing o w))
    (outcome : Outcome) : Sound cfg (s.settleFlush o w outcome) := by
  have hws := (h.flushing o w hh).2.2
  cases outcome with
  | ok =>
    obtain ⟨hs, hfit⟩ := h.headWritten hh
    exact hs.flushBuffer rfl hfit
  | failed =>
    obtain ⟨hs, hfit, hin⟩ := h.headKept hh .failed (by nofun)
    exact hs.flushed rfl hfit fun b hob => .inr (.inr (hws b hob ▸ hin))
  | timedOut =>
    obtain ⟨hs, hfit, hin⟩ := h.headKept hh .timedOut (by nofun)
    exact hs.flushed rfl hfit fun b hob => .inr (.inr (hws b hob ▸ hin))
  | cancelled =>
    obtain ⟨hs, hfit, -⟩ := h.headKept hh .cancelled (by nofun)
    exact hs.abandon hfit
  | deadline =>
    obtain ⟨hs, hfit, -⟩ := h.headKept hh .deadline (by nofun)
    have hd := Forwarder.rebindDeadline_quiet (s.headKept w .deadline).f
    exact (hs.forwarder hd (Forwarder.rebindDeadline_marks _)).abandon (hfit.forwarder hd)

/-- The lock is let go after a resend. -/
theorem Sound.release (h : Sound cfg s) (hh : s.holder = some (.resending b rest w)) :
    Sound cfg { s with holder := none } := by
  have hno : ∀ o w', s.holder ≠ some (.flushing o w') := by
    intro o w' ho
    rw [hh] at ho
    cases ho
  have hfit : ∀ o, Fit cfg s o → Fit cfg { s with holder := none } o := by
    intro o ho
    refine ho.mono (fun _ => id) (fun _ hp _ => hp) fun b hb => ?_
    refine hb.mono { hb.toBound with } (fun x _ hplace => ?_) (.refl _)
    refine .inr (hplace.imp_left fun hx => ⟨hx.1, ?_⟩)
    intro _ _ ho
    cases ho
  exact { h with
    once := by
      intro x hx hp
      obtain ⟨o, w', ho, -⟩ := h.once x hx hp
      exact absurd ho (hno o w')
    flushing := by
      intro _ _ ho
      cases ho
    resending := by
      intro _ _ _ ho
      cases ho
    waiting := fun o ho => hfit o (h.waiting o ho) }

theorem Sound.resendEnded (h : Sound cfg s) (hh : s.holder = some (.resending b rest w))
    (outcome : Outcome) :
    Sound cfg { s with f := s.f.endWrite w outcome, holder := none } ∧
      Bound { s with f := s.f.endWrite w outcome, holder := none } b := by
  have hq := Forwarder.endWrite_quiet s.f w outcome
  refine ⟨(h.release hh).forwarder hq (Forwarder.endWrite_marks s.f w outcome), ?_⟩
  exact (h.resending b rest w hh).toBound.mono hq.ws hq.later.ended (hq.called ▸ fun _ => id)
    fun _ hp _ _ _ => hp

theorem Sound.settleResend (h : Sound cfg s) (hh : s.holder = some (.resending b rest w))
    (outcome : Outcome) :
    Sound cfg (s.settleResend b rest w outcome) := by
  have hlater := (Forwarder.endWrite_quiet s.f w outcome).later
  have hr := h.resending b rest w hh
  obtain ⟨hended, hbound⟩ := h.resendEnded hh outcome
  cases outcome with
  | ok =>
    refine hended.resendPending rfl { hbound with owed := ?_ }
    refine hr.owed.imp hlater.unclean fun howed x hx => ?_
    rcases howed x hx with hs | hw | hp
    · exact .inl (hlater.settled hs)
    · exact .inl (.inr ⟨w, List.mem_cons_self, hw, hr.write⟩)
    · exact .inr hp
  | failed | timedOut =>
    refine hended.bindDone (.inl (.inr ?_))
    rw [← hr.write]
    exact List.mem_cons_self
  | cancelled | deadline => exact hended

/-! ### The end of a direct write -/

theorem Sound.drainIfRebound (h : Sound cfg s) (he : s.f.Known e)
    (hs : ∀ p ∈ s.sends, p.write.event ≠ e) (ws : Ws) : Sound cfg (s.drainIfRebound e ws) := by
  unfold State.drainIfRebound
  split
  next => exact (h.clearInFlight he hs).1
  next =>
    have hq := s.f.cancelledWriteWs_quiet none
    exact (h.forwarder hq rfl).acquire ⟨he, hs⟩

/-- The event of a direct send that failed is in the buffer, or needs no place. -/
theorem Sound.sendFailed (h : Sound cfg s) {p : Sending} (he : Loose s p.write.event)
    (hflag : (p.write.event, p.buffered) ∈ s.f.called) (outcome : Outcome) :
    Sound cfg { s with
      f := ((s.f.endWrite p.write outcome).clearInFlight p.write.event).rebuffer cfg
        p.write.event p.buffered } := by
  have hq := Forwarder.endWrite_quiet s.f p.write outcome
  have hended := h.forwarder hq (Forwarder.endWrite_marks s.f p.write outcome)
  have hloose : Loose { s with f := s.f.endWrite p.write outcome } p.write.event :=
    he.quiet ⟨hq, List.Sublist.refl _, rfl⟩ rfl
  have hclear := hended.clearInFlight hloose.known hloose.unsent
  exact hclear.1.rebuffer (hloose.quiet hclear.2 rfl)
    (hclear.2.f.called ▸ hq.called ▸ hflag)

theorem Sound.settleSend (h : Sound cfg s) {p : Sending} (he : Loose s p.write.event)
    (hflag : (p.write.event, p.buffered) ∈ s.f.called) (outcome : Outcome) :
    Sound cfg (s.settleSend cfg p outcome) := by
  have hq := Forwarder.endWrite_quiet s.f p.write outcome
  have hended := h.forwarder hq (Forwarder.endWrite_marks s.f p.write outcome)
  have hloose : Loose { s with f := s.f.endWrite p.write outcome } p.write.event :=
    he.quiet ⟨hq, List.Sublist.refl _, rfl⟩ rfl
  have hflag' : (p.write.event, p.buffered) ∈ (s.f.endWrite p.write outcome).called :=
    hq.called ▸ hflag
  have hclear := hended.clearInFlight hloose.known hloose.unsent
  have hknown : ∀ f : Forwarder, f.called = (s.f.endWrite p.write outcome).called →
      (f.rebuffer cfg p.write.event p.buffered).Known p.write.event :=
    fun f hf => ⟨p.buffered, by rw [Forwarder.rebuffer_called, hf]; exact hflag'⟩
  have hfailed := h.sendFailed he hflag outcome
  unfold State.settleSend
  cases outcome with
  | ok => exact hclear.1
  | cancelled | deadline =>
    have hre := hended.rebuffer hloose hflag'
    exact (hre.clearInFlight (hknown _ rfl) hloose.unsent).1
  | failed | timedOut =>
    have hcalled := hclear.2.f.called
    dsimp only
    split
    next => exact hfailed.drainIfRebound (hknown _ hcalled) hloose.unsent _
    next => exact (hfailed.clearInFlight (hknown _ hcalled) hloose.unsent).1

/-! ## Every step -/

theorem Assumed.fresh {event : SandboxEvent} {buffered : Bool} {token : String}
    (h : Assumed s (.send event buffered token)) : Fresh s (s.nextEvent event token) where
  number := rfl
  keyed := h
  critical := by
    intro hc
    have hc' : event.type ∈ criticalEventTypes := of_decide_eq_true hc
    rw [Event.ackKey, if_pos hc]
    simp only [State.nextEvent, SandboxEvent.prepared, hc', true_and]
    split
    next =>
      intro h
      cases h
    next hsome => exact hsome

theorem Sound.send {buffered : Bool} (h : Sound cfg s) (he : Fresh s e) :
    Sound cfg (s.send cfg e buffered) := by
  have hcall := h.withCall he buffered
  have hhand := he.inHand h buffered
  unfold State.send
  dsimp only
  split
  next =>
    split
    next => exact hcall.bufferEvent hhand (he.not_pending h.census)
    next hb =>
      refine hcall.drop fun hin _ => ?_
      rcases List.mem_cons.mp hin with hin | hin
      · simp only [Prod.mk.injEq] at hin
        exact absurd hin.2.symm hb
      · exact absurd ⟨_, hin⟩ (he.unknown h.census)
  next ws _ => exact h.withSend he buffered ws

/-- A bind owes what is held, unacknowledged and not in flight. -/
theorem Sound.bindFit (h : Sound cfg s) (ws : Ws) :
    Fit cfg { s with f := { s.f with ws := some ws, bound := ws :: s.f.bound } }
      (.bind ⟨ws, s.pendingBeforeBind, s.owed⟩) := by
  have howed : ∀ e ∈ s.owed, (e ∈ s.f.eventBuffer ∨ e ∈ s.f.pendingAcks) ∧ e.isCritical ∧
      e ∉ s.f.inFlightAcks ∧ e ∉ s.f.acknowledged := by
    intro e he
    simpa only [State.owed, List.mem_filter, List.mem_append, decide_eq_true_eq] using he
  have hknown : ∀ e ∈ s.owed, s.f.Known e := fun e he =>
    (howed e he).1.elim (h.census.buffer e) fun hp => (h.census.pending e hp).1
  refine { ws := .inl rfl, critical := fun e he => ⟨hknown e he, (howed e he).2.1⟩,
           unsent := ?_, owed := ?_ }
  · intro e he p hp hpe
    exact (howed e he).2.2.1 (hpe ▸ h.sending p hp (hpe ▸ (howed e he).2.1))
  · intro e he
    obtain ⟨hplace, hc, hnot, hack'⟩ := howed e he
    obtain ⟨k, hk⟩ := h.census.ackKey (hknown e he) hc
    -- A pending event that is not in flight is a candidate.
    have hcand : e ∈ s.f.pendingAcks → ∃ k ∈ s.pendingBeforeBind, e.ackKey = some k := by
      intro hp
      refine ⟨k, List.mem_filter.mpr ⟨List.mem_filterMap.mpr ⟨e, hp, hk⟩, ?_⟩, hk⟩
      rw [Option.isNone_iff_eq_none]
      refine lookup_none.mpr fun x hx hxk => hnot ?_
      rwa [h.census.eq_of_ackKey (hknown e he) (h.census.inFlight x hx).1 hk hxk] at hx
    by_cases hp : e ∈ s.f.pendingAcks
    · exact .inr (.inr ⟨hp, hcand hp⟩)
    · refine .inr (.inl ⟨hplace.resolve_right hp, ?_⟩)
      rintro o w ho rfl
      -- A flush that is not pending any more was acknowledged, and nothing is owed.
      have hack := ((h.flushing o w ho).1.pending hc).resolve_left hp
      exact absurd hack hack'

theorem Sound.bind (h : Sound cfg s) (hb : s.binds = []) (ws : Ws) : Sound cfg (s.bind ws) :=
  (h.rebind hb (some ws) (ws :: s.f.bound)).acquire (h.bindFit ws)

/-- The first waiter leaves the queue. -/
theorem Sound.granted (h : Sound cfg s) {waiters : List Owner} (hw : s.waiters = o :: waiters) :
    Sound cfg { s with waiters } ∧ Fit cfg { s with waiters } o := by
  have hq : Quiet s { s with waiters } := ⟨.refl s.f, List.Sublist.refl _, rfl⟩
  have hrest : waiters ⊆ s.waiters := by
    rw [hw]
    exact List.subset_cons_self _ _
  refine ⟨h.quiet hq hrest fun _ _ => id, hq.fit (h.waiting o ?_)⟩
  rw [hw]
  exact List.mem_cons_self

theorem Sound.leave {i : Nat} (h : Sound cfg s) (hi : s.waiters[i]? = some o) {outcome : Outcome}
    (hs : s.leave i o outcome = some s') : Sound cfg s' := by
  have ho := h.waiting o (List.mem_of_getElem? hi)
  have hq : Quiet s { s with waiters := s.waiters.eraseIdx i } :=
    ⟨.refl s.f, List.Sublist.refl _, rfl⟩
  have hgone := h.quiet hq (List.eraseIdx_subset) fun _ _ => id
  unfold State.leave at hs
  split at hs
  next =>
    cases hs
    exact hgone.abandon (hq.fit ho)
  next e =>
    cases hs
    have hd := s.f.rebindDeadline_quiet
    exact (hgone.forwarder hd s.f.rebindDeadline_marks).abandon ((hq.fit ho).forwarder hd)
  next => cases hs

/-- **The step lemma.** -/
theorem Sound.step (h : Sound cfg s) {a : Step} (ha : Assumed s a)
    (hs : s.step cfg a = some s') : Sound cfg s' := by
  cases a with
  | send event buffered token =>
    cases hs
    exact h.send ha.fresh
  | bind ws =>
    cases hs
    exact h.bind ha.2 ws
  | unbind =>
    cases hs
    exact h.rebind ha none s.f.bound
  | acknowledge k =>
    cases hs
    exact h.acknowledge k
  | closing ws =>
    cases hs
    refine h.forwarder ⟨rfl, rfl, rfl, fun _ => id, rfl, .inl rfl, ?_⟩ rfl
    exact { Forwarder.Later.refl s.f with closing := fun _ hx => List.mem_cons_of_mem _ hx }
  | ended ws =>
    cases hs
    refine h.forwarder ⟨rfl, rfl, rfl, fun _ => id, rfl, .inl rfl, ?_⟩ rfl
    exact { Forwarder.Later.refl s.f with ended := fun _ hx => List.mem_cons_of_mem _ hx }
  | sent i outcome =>
    simp only [State.step] at hs
    split at hs
    next => cases hs
    next =>
      obtain ⟨p, hp, rfl⟩ := Option.map_eq_some_iff.mp hs
      obtain ⟨hun, hloose⟩ := h.unsend hp
      exact hun.settleSend hloose (h.known p (List.mem_of_getElem? hp)) outcome
  | recovered outcome =>
    obtain ⟨r, hr, hs⟩ := Option.bind_eq_some_iff.mp hs
    unfold State.recover at hs
    split at hs
    next => cases hs
    next => cases hs
    next =>
      cases hs
      exact h.settleFlush hr outcome
    next =>
      cases hs
      exact h.settleResend hr outcome
  | grant =>
    simp only [State.step] at hs
    split at hs
    next o waiters hfree hw =>
      cases hs
      obtain ⟨hrest, ho⟩ := h.granted hw
      exact hrest.flushBuffer hfree ho
    next => cases hs
  | leave i outcome =>
    obtain ⟨o, ho, hs⟩ := Option.bind_eq_some_iff.mp hs
    exact h.leave ho hs

theorem Sound.initial (cfg : Settings) : Sound cfg {} where
  census :=
    { numbered := fun _ h => absurd h List.not_mem_nil
      distinct := fun _ h => absurd h List.not_mem_nil
      keyed := fun _ h => absurd h List.not_mem_nil
      critical := fun _ h => absurd h List.not_mem_nil
      buffer := fun _ h => absurd h List.not_mem_nil
      pending := fun _ h => absurd h List.not_mem_nil
      inFlight := fun _ h => absurd h List.not_mem_nil
      nodup := List.nodup_nil }
  known := fun _ h => absurd h List.not_mem_nil
  sendsNodup := List.nodup_nil
  bufferNodup := List.nodup_nil
  apart := fun _ h => absurd h List.not_mem_nil
  sending := fun _ h => absurd h List.not_mem_nil
  once := fun _ h => absurd h List.not_mem_nil
  held := fun _ h => absurd h List.not_mem_nil
  flushing := fun _ _ h => absurd h (Option.some_ne_none _).symm
  resending := fun _ _ _ h => absurd h (Option.some_ne_none _).symm
  waiting := fun _ h => absurd h List.not_mem_nil
  recovered := fun _ h => absurd h List.not_mem_nil

/-- **The run lemma.** -/
theorem sound_of_reachable (h : (forwarder cfg).Reachable Assumed {} s) : Sound cfg s :=
  h.inv (Sound cfg ·) (Sound.initial cfg) fun _ _ _ hs ha hstep => hs.step ha hstep

/-! ## No critical event is lost -/

/-- A critical event that the forwarder has to answer for: sent to be buffered, not
acknowledged, and not dropped from a buffer full of critical events. -/
structure Answerable (cfg : Settings) (f : Forwarder) (e : Event) : Prop where
  called : (e, true) ∈ f.called
  critical : e.isCritical
  unacknowledged : e ∉ f.acknowledged
  kept : ¬ f.EvictedFull cfg e

/-- No coroutine of the forwarder is suspended. -/
def State.idle (s : State) : Prop := s.sends = [] ∧ s.holder = none ∧ s.waiters = []

/-- Every critical event is held, once when nothing is under way, and a bind that ran
clean has settled what it owed. -/
structure CriticalKept (cfg : Settings) (s : State) : Prop where
  held : ∀ e, Answerable cfg s.f e → e ∈ s.f.eventBuffer ∨ e ∈ s.f.pendingAcks
  once : s.idle → ∀ e, Answerable cfg s.f e →
    s.f.eventBuffer.count e + s.f.pendingAcks.count e = 1
  recovered : ∀ r ∈ s.f.recovered, r.clean → ∀ e ∈ r.owed,
    e ∈ s.f.acknowledged ∨ s.f.EvictedFull cfg e ∨
      ∃ w ∈ s.f.written, w.event = e ∧ w.ws = r.ws

theorem Sound.answerable (h : Sound cfg s) (he : Answerable cfg s.f e) :
    e ∈ s.f.eventBuffer ∨ e ∈ s.f.pendingAcks := by
  rcases h.held e he.called he.critical nofun with (ha | hv) | hplace
  · exact absurd ha he.unacknowledged
  · exact absurd hv he.kept
  · exact hplace

/-- **No critical event is lost.** -/
theorem critical_kept (h : (forwarder cfg).Reachable Assumed {} s) : CriticalKept cfg s := by
  have hs := sound_of_reachable h
  refine ⟨fun e he => hs.answerable he, ?_, ?_⟩
  · rintro ⟨-, hfree, -⟩ e he
    have hnot : ¬ (e ∈ s.f.eventBuffer ∧ e ∈ s.f.pendingAcks) := by
      rintro ⟨hb, hp⟩
      obtain ⟨o, w, ho, -⟩ := hs.once e hb hp
      rw [hfree] at ho
      cases ho
    rw [hs.bufferNodup.count, hs.census.nodup.count]
    rcases hs.answerable he with hb | hp
    · rw [if_pos hb, if_neg fun hp => hnot ⟨hb, hp⟩]
    · rw [if_pos hp, if_neg fun hb => hnot ⟨hb, hp⟩]
  · intro r hr hclean e he
    rcases hs.recovered r hr hclean e he with (ha | hv) | hw
    · exact .inl ha
    · exact .inr (.inl hv)
    · exact .inr (.inr hw)

/-- The event that ends a prompt. -/
def executionComplete : SandboxEvent := { type := .executionComplete, messageId := some "m1" }

/-- A disconnection that leaves one event pending and one in the buffer, and the bind
that recovers both. -/
def reconnection : List Step :=
  [.bind 1, .send executionComplete true "", .sent 0 .ok, .unbind,
    .send { type := .pushComplete, operationId := some "p1" } true "", .bind 2,
    .recovered .ok, .recovered .ok]

def smallBuffer : Settings := ⟨2, by decide⟩

theorem critical_kept_reconnection :
    ∃ s, (forwarder smallBuffer).run Assumed {} reconnection = some s ∧
      s.f.recovered.map (fun r => (r.ws, r.owed.map (·.call), r.clean)) =
        [(2, [1, 0], true), (1, [], true)] ∧
      CriticalKept smallBuffer s := by
  have hrun : ((forwarder smallBuffer).run Assumed {} reconnection).map
      (fun s => s.f.recovered.map fun r => (r.ws, r.owed.map (·.call), r.clean)) =
        some [(2, [1, 0], true), (1, [], true)] := by decide +kernel
  obtain ⟨s, hs, hrec⟩ := Option.map_eq_some_iff.mp hrun
  exact ⟨s, hs, hrec, critical_kept (System.run_reachable hs)⟩

/-- A direct send is parked on connection 1. -/
def parkedSend : State :=
  ((forwarder smallBuffer).run Assumed {} [.bind 1, .send executionComplete true ""]).getD {}

/-- Connection 2 is bound meanwhile. -/
def parkedSendRebound : State :=
  ((forwarder smallBuffer).run Assumed parkedSend [.bind 2]).getD {}

/-- A bind leaves out the event of a direct send that is still parked on the old
connection: held and unacknowledged when the bind began, it is not written to the new
connection when the bind completes. -/
theorem parked_send_left_out :
    (forwarder smallBuffer).run Assumed {} [.bind 1, .send executionComplete true ""] =
        some parkedSend ∧
      (forwarder smallBuffer).run Assumed parkedSend [.bind 2] = some parkedSendRebound ∧
      (∃ r ∈ parkedSendRebound.f.recovered, r.ws = 2 ∧ r.clean) ∧
      ∃ e ∈ parkedSend.f.pendingAcks, Answerable smallBuffer parkedSendRebound.f e ∧
        ¬ ∃ w ∈ parkedSendRebound.f.written, w.event = e ∧ w.ws = 2 := by
  have hnone : parkedSendRebound.f.evictions = [] := by decide +kernel
  refine ⟨by decide +kernel, by decide +kernel, by decide +kernel,
    executionComplete.prepared 0 "", by decide +kernel,
    ⟨by decide +kernel, by decide +kernel, by decide +kernel, ?_⟩, by decide +kernel⟩
  rintro ⟨v, hv, -⟩
  rw [hnone] at hv
  cases hv

end BackgroundAgents.Sandbox

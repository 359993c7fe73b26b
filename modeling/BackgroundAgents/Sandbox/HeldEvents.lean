import BackgroundAgents.Sandbox.ForwarderLaws

/-!
# What the forwarder holds

The forwarder makes no events: whatever it buffers, keeps pending or in flight, or has
given to a connection came in through a call of `send`. So a property of these events
is a property of everything it holds (`State.Carries.step`), whichever way the calls,
the writes and the lock take turns.
-/

namespace BackgroundAgents.Sandbox

open Forwarder (Outcome)

namespace Forwarder

/-- These are the calls of `send`, and the property holds of every event on the books. -/
structure Carries (P : Event → Prop) (calls : List (Event × Bool)) (f : Forwarder) : Prop where
  called : f.called = calls
  buffer : ∀ e ∈ f.eventBuffer, P e
  pending : ∀ e ∈ f.pendingAcks, P e
  inFlight : ∀ e ∈ f.inFlightAcks, P e
  written : ∀ w ∈ f.written, P w.event

variable {P : Event → Prop} {calls : List (Event × Bool)} {f : Forwarder} {e : Event} {cfg : Settings}

theorem carries_without {acks : List Event} (h : ∀ e ∈ acks, P e) (k : AckId) :
    ∀ e ∈ without acks k, P e :=
  fun e he => h e (mem_without.mp he).1

theorem carries_putAck {acks : List Event} (h : ∀ e ∈ acks, P e) (k : AckId) (he : P e) :
    ∀ x ∈ putAck acks k e, P x := by
  intro x hx
  rcases mem_putAck.mp hx with hx | rfl
  · exact h x hx.1
  · exact he

theorem Carries.claim (h : f.Carries P calls) (he : P e) : (f.claim e).Carries P calls := by
  unfold Forwarder.claim
  split
  · exact h
  · exact ⟨h.called, h.buffer, carries_putAck h.pending _ he, carries_putAck h.inFlight _ he, h.written⟩

theorem Carries.clearInFlight (h : f.Carries P calls) (e : Event) : (f.clearInFlight e).Carries P calls := by
  unfold Forwarder.clearInFlight
  split
  · exact h
  · split
    · exact ⟨h.called, h.buffer, h.pending, carries_without h.inFlight _, h.written⟩
    · exact h

theorem Carries.unclaim (h : f.Carries P calls) (e : Event) : (f.unclaim e).Carries P calls := by
  unfold Forwarder.unclaim
  split
  · exact h
  · split
    · exact ⟨h.called, h.buffer, carries_without h.pending _, h.inFlight, h.written⟩
    · exact h

theorem Carries.acknowledge (h : f.Carries P calls) (k : AckId) : (f.acknowledge k).Carries P calls := by
  unfold Forwarder.acknowledge
  split
  · exact h
  · exact ⟨h.called, h.buffer, carries_without h.pending _, h.inFlight, h.written⟩

theorem Carries.bufferEvent (h : f.Carries P calls) (he : P e) : (f.bufferEvent cfg e).Carries P calls := by
  obtain ⟨rest, evictions, hbuffer, hrest⟩ := bufferEvent_spec cfg f e
  rw [hbuffer]
  refine ⟨h.called, ?_, h.pending, h.inFlight, h.written⟩
  intro x hx
  rcases List.mem_append.mp hx with hx | hx
  · rcases hrest with ⟨rfl, _⟩ | ⟨v, hevicts, _⟩
    · exact h.buffer x hx
    · exact h.buffer x (hevicts.sub.subset hx)
  · exact List.mem_singleton.mp hx ▸ he

theorem Carries.rebuffer (h : f.Carries P calls) (he : P e) (buffered : Bool) :
    (f.rebuffer cfg e buffered).Carries P calls := by
  unfold Forwarder.rebuffer
  split
  · exact (h.unclaim e).bufferEvent he
  · exact h.unclaim e

theorem Carries.popHead (h : f.Carries P calls) (e : Event) : (f.popHead e).Carries P calls := by
  unfold Forwarder.popHead
  split
  · exact ⟨h.called, fun x hx => h.buffer x (List.mem_of_mem_tail hx), h.pending, h.inFlight, h.written⟩
  · exact h

theorem Carries.unclaimHead (h : f.Carries P calls) (e : Event) : (f.unclaimHead e).Carries P calls := by
  unfold Forwarder.unclaimHead
  split
  · exact h.unclaim e
  · exact h.popHead e

theorem Carries.endWrite {w : Write} (h : f.Carries P calls) (hw : P w.event) (o : Outcome) :
    (f.endWrite w o).Carries P calls := by
  cases o with
  | ok => exact ⟨h.called, h.buffer, h.pending, h.inFlight, List.forall_mem_cons.mpr ⟨hw, h.written⟩⟩
  | failed => exact ⟨h.called, h.buffer, h.pending, h.inFlight, h.written⟩
  | timedOut => exact ⟨h.called, h.buffer, h.pending, h.inFlight, h.written⟩
  | cancelled => exact ⟨h.called, h.buffer, h.pending, h.inFlight, h.written⟩
  | deadline => exact ⟨h.called, h.buffer, h.pending, h.inFlight, h.written⟩

theorem Carries.rebindDeadline (h : f.Carries P calls) : f.rebindDeadline.Carries P calls := by
  unfold Forwarder.rebindDeadline
  split
  · exact h
  · exact ⟨h.called, h.buffer, h.pending, h.inFlight, h.written⟩

theorem Carries.bindDone (h : f.Carries P calls) (b : Bind) : (f.bindDone b).Carries P calls :=
  ⟨h.called, h.buffer, h.pending, h.inFlight, h.written⟩

end Forwarder

namespace State

/-- The property holds of every event that is buffered, pending or in flight, or was or is
being written. -/
structure Carries (P : Event → Prop) (calls : List (Event × Bool)) (s : State) : Prop where
  f : s.f.Carries P calls
  sends : ∀ p ∈ s.sends, P p.write.event
  holder : ∀ w, s.holderWrite = some w → P w.event

variable {P : Event → Prop} {calls : List (Event × Bool)} {s : State} {cfg : Settings}

theorem Carries.mono {Q : Event → Prop} (h : s.Carries P calls) (hPQ : ∀ e, P e → Q e) :
    s.Carries Q calls :=
  ⟨⟨h.f.called, fun e he => hPQ e (h.f.buffer e he), fun e he => hPQ e (h.f.pending e he),
    fun e he => hPQ e (h.f.inFlight e he), fun w hw => hPQ w.event (h.f.written w hw)⟩,
    fun p hp => hPQ p.write.event (h.sends p hp), fun w hw => hPQ w.event (h.holder w hw)⟩

/-- Only the forwarder's own fields have changed. -/
theorem Carries.withF {f : Forwarder} (h : s.Carries P calls) (hf : f.Carries P calls) :
    ({ s with f := f } : State).Carries P calls :=
  ⟨hf, h.sends, h.holder⟩

theorem Carries.withWaiters (h : s.Carries P calls) (waiters : List Owner) :
    ({ s with waiters := waiters } : State).Carries P calls :=
  ⟨h.f, h.sends, h.holder⟩

theorem Carries.resendPending (b : Bind) : ∀ (ackIds : List AckId) {s : State}, s.Carries P calls →
    (s.resendPending b ackIds).Carries P calls
  | [], s, h => h.withF (h.f.bindDone b)
  | ackId :: rest, s, h => by
    rw [State.resendPending]
    split
    next => exact Carries.resendPending b rest h
    next event hevent =>
      split
      next => exact h.withF (h.f.bindDone b)
      next ws _ =>
        refine ⟨⟨h.f.called, h.f.buffer, h.f.pending, h.f.inFlight, h.f.written⟩, h.sends, ?_⟩
        intro w hw
        rw [← Option.some.inj hw]
        exact h.f.pending event (lookup_some hevent).1

theorem Carries.flushed (h : s.Carries P calls) : ∀ owner : Owner, (s.flushed owner).Carries P calls
  | .drain event => h.withF (h.f.clearInFlight event)
  | .bind b => Carries.resendPending b _ h

theorem Carries.flushBuffer (h : s.Carries P calls) (owner : Owner) :
    (s.flushBuffer owner).Carries P calls := by
  unfold State.flushBuffer
  split
  next event rest ws hbuffer _ =>
    have hevent : P event := h.f.buffer event (hbuffer ▸ List.mem_cons_self)
    have hclaim := h.f.claim hevent
    refine ⟨⟨hclaim.called, hclaim.buffer, hclaim.pending, hclaim.inFlight, hclaim.written⟩, h.sends, ?_⟩
    intro w hw
    rw [← Option.some.inj hw]
    exact hevent
  next => exact h.flushed owner

theorem Carries.acquire (h : s.Carries P calls) (owner : Owner) : (s.acquire owner).Carries P calls := by
  unfold State.acquire
  split
  · exact h.flushBuffer owner
  · exact h.withWaiters _

theorem Carries.drainIfRebound (h : s.Carries P calls) (event : Event) (failedWs : Ws) :
    (s.drainIfRebound event failedWs).Carries P calls := by
  unfold State.drainIfRebound
  split
  · exact h.withF (h.f.clearInFlight event)
  · refine Carries.acquire ?_ _
    exact h.withF ⟨h.f.called, h.f.buffer, h.f.pending, h.f.inFlight, h.f.written⟩

theorem Carries.settleSend (h : s.Carries P calls) {p : Sending} (hp : P p.write.event) (o : Outcome) :
    (settleSend cfg s p o).Carries P calls := by
  have hend := h.f.endWrite hp o
  have hfailed : ∀ s' : State, s' = { s with
      f := ((s.f.endWrite p.write o).clearInFlight p.write.event).rebuffer cfg p.write.event
        p.buffered } → s'.Carries P calls := by
    intro s' hs'
    rw [hs']
    exact h.withF ((hend.clearInFlight _).rebuffer hp _)
  unfold State.settleSend
  cases o with
  | ok => exact h.withF (hend.clearInFlight _)
  | cancelled => exact h.withF ((hend.rebuffer hp _).clearInFlight _)
  | deadline => exact h.withF ((hend.rebuffer hp _).clearInFlight _)
  | failed =>
    dsimp only
    split
    · exact (hfailed _ rfl).drainIfRebound _ _
    · exact (hfailed _ rfl).withF ((hfailed _ rfl).f.clearInFlight _)
  | timedOut =>
    dsimp only
    split
    · exact (hfailed _ rfl).drainIfRebound _ _
    · exact (hfailed _ rfl).withF ((hfailed _ rfl).f.clearInFlight _)

theorem Carries.abandon (h : s.Carries P calls) : ∀ owner : Owner, (s.abandon owner).Carries P calls
  | .drain event => h.withF (h.f.clearInFlight event)
  | .bind _ => h

/-- The holder's write is over. -/
theorem Carries.released {f : Forwarder} (h : s.Carries P calls) (hf : f.Carries P calls) :
    ({ s with f := f, holder := none } : State).Carries P calls :=
  ⟨hf, h.sends, fun _ hw => by cases hw⟩

theorem Carries.headKept {w : Write} (h : s.Carries P calls) (hw : P w.event) (o : Outcome) :
    (s.headKept w o).Carries P calls := by
  have hend := (h.f.endWrite hw o).unclaimHead w.event
  have hmarked : ∀ ws : Option Ws, ({ (s.f.endWrite w o).unclaimHead w.event with
      cancelledWriteWs := ws } : Forwarder).Carries P calls :=
    fun _ => ⟨hend.called, hend.buffer, hend.pending, hend.inFlight, hend.written⟩
  unfold State.headKept
  cases o with
  | ok => exact h.released (hend.clearInFlight _)
  | failed => exact h.released (hend.clearInFlight _)
  | timedOut => exact h.released (hend.clearInFlight _)
  | cancelled => exact h.released ((hmarked _).clearInFlight _)
  | deadline => exact h.released ((hmarked _).clearInFlight _)

theorem Carries.settleFlush {w : Write} (h : s.Carries P calls) (hw : P w.event) (owner : Owner)
    (o : Outcome) : (s.settleFlush owner w o).Carries P calls := by
  have hkept := h.headKept hw o
  cases o with
  | ok =>
    exact (h.released (((h.f.endWrite hw .ok).clearInFlight _).popHead _)).flushBuffer owner
  | failed => exact hkept.flushed owner
  | timedOut => exact hkept.flushed owner
  | cancelled => exact hkept.abandon owner
  | deadline => exact (hkept.withF hkept.f.rebindDeadline).abandon owner

theorem Carries.settleResend {w : Write} (h : s.Carries P calls) (hw : P w.event) (b : Bind)
    (rest : List AckId) (o : Outcome) : (s.settleResend b rest w o).Carries P calls := by
  have hreleased := h.released (h.f.endWrite hw o)
  cases o with
  | ok => exact Carries.resendPending b rest hreleased
  | failed => exact hreleased.withF (hreleased.f.bindDone b)
  | timedOut => exact hreleased.withF (hreleased.f.bindDone b)
  | cancelled => exact hreleased
  | deadline => exact hreleased

theorem Carries.recover {s' : State} {r : Recovery} {o : Outcome} (h : s.Carries P calls)
    (hr : s.holder = some r) (hstep : s.recover r o = some s') : s'.Carries P calls := by
  cases r with
  | flushing owner w =>
    have hw : P w.event := h.holder w (by rw [State.holderWrite, hr]; rfl)
    have hsettled : s' = s.settleFlush owner w o := by
      unfold State.recover at hstep
      split at hstep
      next => cases hstep
      next => cases hstep
      next heq _ =>
        cases heq
        exact (Option.some.inj hstep).symm
      next heq _ => cases heq
    rw [hsettled]
    exact h.settleFlush hw owner o
  | resending b rest w =>
    have hw : P w.event := h.holder w (by rw [State.holderWrite, hr]; rfl)
    have hsettled : s' = s.settleResend b rest w o := by
      unfold State.recover at hstep
      split at hstep
      next => cases hstep
      next => cases hstep
      next heq _ => cases heq
      next heq _ =>
        cases heq
        exact (Option.some.inj hstep).symm
    rw [hsettled]
    exact h.settleResend hw b rest o

theorem Carries.leave {s' : State} {i : Nat} {owner : Owner} {o : Outcome} (h : s.Carries P calls)
    (hstep : s.leave i owner o = some s') : s'.Carries P calls := by
  unfold State.leave at hstep
  split at hstep
  next =>
    rw [← Option.some.inj hstep]
    exact (h.withWaiters _).abandon _
  next =>
    rw [← Option.some.inj hstep]
    exact ((h.withWaiters (s.waiters.eraseIdx i)).withF h.f.rebindDeadline).abandon _
  next => cases hstep

/-- A call of `send` brings in its event. -/
theorem Carries.send (cfg : Settings) (h : s.Carries P calls) {e : Event} (he : P e) (buffered : Bool) :
    (send cfg s e buffered).Carries P ((e, buffered) :: calls) := by
  have hcalled : ({ s.f with called := (e, buffered) :: s.f.called } : Forwarder).Carries P
      ((e, buffered) :: calls) :=
    ⟨congrArg (_ :: ·) h.f.called, h.f.buffer, h.f.pending, h.f.inFlight, h.f.written⟩
  unfold State.send
  dsimp only
  split
  next =>
    split
    · exact ⟨hcalled.bufferEvent he, h.sends, h.holder⟩
    · exact ⟨hcalled, h.sends, h.holder⟩
  next ws _ =>
    have hclaim := hcalled.claim he
    refine ⟨⟨hclaim.called, hclaim.buffer, hclaim.pending, hclaim.inFlight, hclaim.written⟩, ?_,
      h.holder⟩
    intro p hp
    rcases List.mem_append.mp hp with hp | hp
    · exact h.sends p hp
    · rw [List.mem_singleton.mp hp]
      exact he

/-- No other step brings in an event. -/
theorem Carries.step {s' : State} {a : Step} (h : s.Carries P calls)
    (hother : ∀ event buffered token, a ≠ .send event buffered token)
    (hstep : s.step cfg a = some s') : s'.Carries P calls := by
  have hfields : ∀ {f : Forwarder}, f.called = s.f.called → f.eventBuffer = s.f.eventBuffer →
      f.pendingAcks = s.f.pendingAcks → f.inFlightAcks = s.f.inFlightAcks →
      f.written = s.f.written → ({ s with f := f } : State).Carries P calls := by
    intro f hcalled hbuffer hpending hinFlight hwritten
    exact h.withF ⟨hcalled.trans h.f.called, hbuffer ▸ h.f.buffer, hpending ▸ h.f.pending,
      hinFlight ▸ h.f.inFlight, hwritten ▸ h.f.written⟩
  cases a with
  | send event buffered token => exact absurd rfl (hother event buffered token)
  | bind ws =>
    rw [← Option.some.inj hstep]
    refine Carries.acquire ?_ _
    exact hfields rfl rfl rfl rfl rfl
  | unbind =>
    rw [← Option.some.inj hstep]
    exact hfields rfl rfl rfl rfl rfl
  | acknowledge ackId =>
    rw [← Option.some.inj hstep]
    exact h.withF (h.f.acknowledge ackId)
  | closing ws =>
    rw [← Option.some.inj hstep]
    exact hfields rfl rfl rfl rfl rfl
  | ended ws =>
    rw [← Option.some.inj hstep]
    exact hfields rfl rfl rfl rfl rfl
  | sent i o =>
    unfold State.step at hstep
    dsimp only at hstep
    split at hstep
    next => cases hstep
    next =>
      obtain ⟨p, hp, rfl⟩ := Option.map_eq_some_iff.mp hstep
      have herased : ({ s with sends := s.sends.eraseIdx i } : State).Carries P calls :=
        ⟨h.f, fun q hq => h.sends q (List.mem_of_mem_eraseIdx hq), h.holder⟩
      exact herased.settleSend (h.sends p (List.mem_of_getElem? hp)) o
  | recovered o =>
    obtain ⟨r, hr, hrecover⟩ := Option.bind_eq_some_iff.mp hstep
    exact h.recover hr hrecover
  | grant =>
    unfold State.step at hstep
    dsimp only at hstep
    split at hstep
    next =>
      rw [← Option.some.inj hstep]
      exact (h.withWaiters _).flushBuffer _
    next => cases hstep
  | leave i o =>
    obtain ⟨owner, _, hleave⟩ := Option.bind_eq_some_iff.mp hstep
    exact h.leave hleave

end State

end BackgroundAgents.Sandbox

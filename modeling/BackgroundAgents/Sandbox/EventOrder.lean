import BackgroundAgents.Sandbox.CriticalEvents
import Mathlib.Data.List.Perm.Subperm

/-!
# Events in order, and once

Token and tool-call events carry the whole text so far, so of two events of one
message the later must be written later (`Precedes`). A write counts while it may still
succeed (`State.Live`): it did, or a coroutine is parked on it.

The forwarder keeps this order only where its direct sends do not pass its backlog.
`Orderly` says on the state before a step when they do not: a direct send finds no
earlier event of its message in the buffer, except one whose flush to the same
connection is under way; an attempt that leaves its event in the buffer leaves no later
event of the message ahead of it; and a bind finds every write that is under way marked
in flight. Under these conditions `Ordered` is an invariant: the buffer is in order, a
buffered event has been overtaken on no open connection, and what a bind is going to
resend is nowhere but pending.
-/

namespace BackgroundAgents.Sandbox

open BackgroundAgents.Transition
open Forwarder (Outcome)

variable {cfg : Settings} {s s' : State} {e : Event} {b : Bind} {o : Owner}

/-- Two non-critical events of one message, in the order in which they were sent. -/
def Precedes (a b : Event) : Prop :=
  a.isCritical = false ∧ b.isCritical = false ∧ a.messageId ≠ none ∧
    a.messageId = b.messageId ∧ a.call < b.call

instance (a b : Event) : Decidable (Precedes a b) := by
  unfold Precedes
  infer_instance

theorem Precedes.irrefl (a : Event) : ¬ Precedes a a := fun h => Nat.lt_irrefl _ h.2.2.2.2

/-! ## Writes -/

namespace State

/-- The writes that coroutines are parked on. -/
def parked (s : State) : List Write := s.sends.map (·.write) ++ s.holderWrite.toList

/-- The writes that have succeeded or may still succeed. -/
def live (s : State) : List Write := s.f.written ++ s.parked

/-- The event is being flushed to this connection. -/
def FlushOn (s : State) (e : Event) (ws : Ws) : Prop :=
  ∃ w ∈ s.holderWrite, w.event = e ∧ w.ws = ws

/-- The connection that is bound and open once this outcome of the write is in. -/
def stays (s : State) (w : Write) : Outcome → Option Ws
  | .timedOut | .deadline => s.f.openWs.filter (· ≠ w.ws)
  | .ok | .failed | .cancelled => s.f.openWs

/-- No live write to the connection is of a later event of this one's message. -/
def NotOvertaken (s : State) (e : Event) (ws : Option Ws) : Prop :=
  ∀ c ∈ ws, ∀ w ∈ s.live, w.ws = c → ¬ Precedes e w.event

end State

/-- **Where the order is kept.** -/
def Orderly (s : State) : Step → Prop
  | .send event _ token =>
    ∀ c ∈ s.f.openWs, ∀ e ∈ s.f.eventBuffer, Precedes e (s.nextEvent event token) →
      s.FlushOn e c
  | .sent i outcome =>
    outcome = .ok ∨ ∀ p ∈ s.sends[i]?, p.buffered = true →
      (∀ e ∈ s.f.eventBuffer, ¬ Precedes p.write.event e) ∧
        s.NotOvertaken p.write.event (s.stays p.write outcome)
  | .recovered outcome =>
    outcome = .ok ∨ ∀ w ∈ s.holderWrite, w.event ∈ s.f.eventBuffer →
      s.NotOvertaken w.event (s.stays w outcome)
  | .bind _ => ∀ w ∈ s.parked, w.event ∈ s.f.pendingAcks → w.event ∈ s.f.inFlightAcks
  | .unbind | .acknowledge _ | .closing _ | .ended _ | .grant | .leave _ _ => True

/-! ## The property -/

/-- Events arrive in order and once. -/
structure InOrder (s : State) : Prop where
  order : ∀ v ∈ s.f.written, ∀ w ∈ s.f.written, v.ws = w.ws → Precedes v.event w.event →
    v.seq < w.seq
  once : s.f.written.Pairwise fun v w => v.event = w.event →
    v.ws ≠ w.ws ∧ v.event.isCritical

/-! ## The invariant -/

/-- The event is in no one's hands but the pending events', and not yet on `ws`. -/
structure Clear (s : State) (ws : Ws) (e : Event) : Prop where
  unbuffered : e ∉ s.f.eventBuffer
  unsent : ∀ p ∈ s.sends, p.write.event ≠ e
  unwritten : ∀ w ∈ s.live, w.event = e → w.ws ≠ ws

/-- What a bind is going to resend. -/
structure Candidates (s : State) (ws : Ws) (acks : List AckId) : Prop where
  nodup : acks.Nodup
  clear : ∀ k ∈ acks, ∃ e, s.f.Known e ∧ e.ackKey = some k ∧ Clear s ws e

/-- What a coroutine that is going to flush relies on. -/
def Ready (s : State) : Owner → Prop
  | .drain _ => True
  | .bind b => Candidates s b.ws b.pendingBeforeBind

/-- The live writes are numbered, in order and without a repetition. -/
structure Lines (f : Forwarder) (live : List Write) : Prop where
  numbered : ∀ w ∈ live, w.seq < f.writes ∧ f.Known w.event ∧ w.ws ∈ f.bound
  distinct : (live.map (·.seq)).Nodup
  order : ∀ v ∈ live, ∀ w ∈ live, v.ws = w.ws → Precedes v.event w.event → v.seq < w.seq
  single : ∀ v ∈ live, ∀ w ∈ live, v.event = w.event →
    v.ws = w.ws ∨ v.event.isCritical = false → v = w

/-- **The invariant.** -/
structure Ordered (s : State) : Prop where
  lines : Lines s.f s.live
  bound : ∀ c, s.f.ws = some c → c ∈ s.f.bound
  sole : ∀ p ∈ s.sends, ∀ w ∈ s.live, w.event = p.write.event → w = p.write
  buffer : s.f.eventBuffer.Pairwise fun x y => ¬ Precedes y x
  behind : ∀ e ∈ s.f.eventBuffer, ∀ c, s.f.openWs = some c → ∀ w ∈ s.live, w.ws = c →
    Precedes e w.event → s.FlushOn e c
  unwritten : ∀ e ∈ s.f.eventBuffer, ∀ w ∈ s.live, w.event = e →
    ∃ o, s.holder = some (.flushing o w)
  waiting : ∀ o ∈ s.waiters, Ready s o
  flushing : ∀ o w, s.holder = some (.flushing o w) → Ready s o
  resending : ∀ b rest w, s.holder = some (.resending b rest w) →
    Candidates s b.ws rest ∧ ∀ p ∈ s.sends, p.write.event ≠ w.event
  solo : s.binds.length ≤ 1

theorem Ordered.inOrder (h : Ordered s) : InOrder s := by
  have hin : ∀ w ∈ s.f.written, w ∈ s.live := fun w hw => List.mem_append_left _ hw
  refine ⟨fun v hv w hw => h.lines.order v (hin v hv) w (hin w hw), ?_⟩
  have hdistinct : (s.f.written.map (·.seq)).Nodup := by
    have hall := h.lines.distinct
    rw [State.live, List.map_append] at hall
    exact (List.nodup_append.mp hall).1
  refine (List.pairwise_map.mp hdistinct).imp_of_mem fun {v w} hv hw hne hvw => ?_
  by_contra hno
  have hsame : v.ws = w.ws ∨ v.event.isCritical = false := by
    rw [not_and_or, not_not, Bool.not_eq_true] at hno
    exact hno
  exact hne (congrArg Write.seq (h.lines.single v (hin v hv) w (hin w hw) hvw hsame))

/-! ## Live writes -/

theorem Lines.subperm {f f' : Forwarder} {live live' : List Write} (h : Lines f live)
    (hsub : live'.Subperm live) (hcalled : f.called ⊆ f'.called) (hbound : f.bound ⊆ f'.bound)
    (hwrites : f.writes ≤ f'.writes) : Lines f' live' := by
  have hin := hsub.subset
  refine ⟨fun w hw => ?_, ?_, fun v hv w hw => h.order v (hin hv) w (hin hw),
    fun v hv w hw => h.single v (hin hv) w (hin hw)⟩
  · obtain ⟨hseq, hknown, hws⟩ := h.numbered w (hin hw)
    exact ⟨Nat.lt_of_lt_of_le hseq hwrites, hknown.imp fun _ hk => hcalled hk, hbound hws⟩
  · obtain ⟨l, hperm, hl⟩ := hsub
    exact (hperm.map _).nodup_iff.mp (h.distinct.sublist (hl.map _))

variable {ws : Ws}

/-- A new write comes after all others; its event has no live write on its connection,
and none at all unless it is critical. -/
theorem Lines.cons {f f' : Forwarder} {live : List Write} (h : Lines f live)
    (hcalled : f.called ⊆ f'.called) (hbound : f'.bound = f.bound)
    (hwrites : f'.writes = f.writes + 1) (hknown : f'.Known e) (hws : ws ∈ f.bound)
    (hahead : ∀ v ∈ live, v.ws = ws → ¬ Precedes e v.event)
    (hnew : ∀ v ∈ live, v.event = e → v.ws ≠ ws ∧ e.isCritical) :
    Lines f' (⟨f.writes, e, ws⟩ :: live) := by
  refine ⟨fun w hw => ?_, ?_, fun v hv w hw hvw hp => ?_, fun v hv w hw hvw hsame => ?_⟩
  · rcases List.mem_cons.mp hw with rfl | hw
    · exact ⟨by rw [hwrites]; exact Nat.lt_succ_self _, hknown, hbound ▸ hws⟩
    · obtain ⟨hseq, hk, hc⟩ := h.numbered w hw
      exact ⟨by omega, hk.imp fun _ hk => hcalled hk, hbound ▸ hc⟩
  · rw [List.map_cons, List.nodup_cons]
    refine ⟨fun hin => ?_, h.distinct⟩
    obtain ⟨v, hv, hseq⟩ := List.mem_map.mp hin
    exact absurd (h.numbered v hv).1 (Nat.not_lt_of_le (Nat.le_of_eq hseq.symm))
  · rcases List.mem_cons.mp hv with rfl | hv <;> rcases List.mem_cons.mp hw with rfl | hw
    · exact absurd hp (Precedes.irrefl _)
    · exact absurd hp (hahead w hw hvw.symm)
    · exact (h.numbered v hv).1
    · exact h.order v hv w hw hvw hp
  · rcases List.mem_cons.mp hv with rfl | hv <;> rcases List.mem_cons.mp hw with rfl | hw
    · rfl
    · obtain ⟨hws', hc⟩ := hnew w hw hvw.symm
      rcases hsame with hsame | hsame
      · exact absurd hsame.symm hws'
      · rw [hsame] at hc
        cases hc
    · obtain ⟨hws', hc⟩ := hnew v hv hvw
      rcases hsame with hsame | hsame
      · exact absurd hsame hws'
      · rw [hvw] at hsame
        rw [hsame] at hc
        cases hc
    · exact h.single v hv w hw hvw hsame

variable {w : Write}

theorem State.mem_live_holder (h : s.holderWrite = some w) : w ∈ s.live := by
  refine List.mem_append_right _ (List.mem_append_right _ ?_)
  simp [h]

theorem State.live_eq (s : State) :
    s.live = s.f.written ++ (s.sends.map (·.write) ++ s.holderWrite.toList) := rfl

/-- The live writes when one direct send is over. -/
theorem State.live_unsend {i : Nat} {p : Sending} (hp : s.sends[i]? = some p) :
    (p.write :: { s with sends := s.sends.eraseIdx i }.live).Perm s.live := by
  obtain ⟨hi, rfl⟩ := List.getElem?_eq_some_iff.mp hp
  have hsends : (s.sends[i] :: s.sends.eraseIdx i).Perm s.sends :=
    List.getElem_cons_eraseIdx_perm hi
  have hwrites := (hsends.map (·.write)).append_right s.holderWrite.toList
  exact List.perm_middle.symm.trans (hwrites.append_left s.f.written)

/-- The live writes when the holder of the lock is done. -/
theorem State.live_release (hw : s.holderWrite = some w) :
    (w :: { s with holder := none }.live).Perm s.live := by
  have hnone : { s with holder := none }.holderWrite = none := rfl
  rw [State.live_eq, State.live_eq, hnone, hw]
  simp only [Option.toList_none, List.append_nil, Option.toList_some]
  rw [← List.append_assoc]
  exact (List.perm_append_singleton _ _).symm

/-! ## Steps of the invariant -/

theorem Clear.mono (h : Clear s ws e) (hbuffer : s'.f.eventBuffer ⊆ s.f.eventBuffer)
    (hsends : s'.sends ⊆ s.sends) (hlive : s'.live ⊆ s.live) : Clear s' ws e :=
  ⟨fun he => h.unbuffered (hbuffer he), fun p hp => h.unsent p (hsends hp),
    fun w hw => h.unwritten w (hlive hw)⟩

theorem Candidates.mono {acks : List AckId} (h : Candidates s ws acks)
    (hcalled : s.f.called ⊆ s'.f.called)
    (hclear : ∀ k ∈ acks, ∀ e, s.f.Known e → e.ackKey = some k → Clear s ws e → Clear s' ws e) :
    Candidates s' ws acks := by
  refine ⟨h.nodup, fun k hk => ?_⟩
  obtain ⟨e, hknown, hek, hc⟩ := h.clear k hk
  exact ⟨e, hknown.imp fun _ hin => hcalled hin, hek, hclear k hk e hknown hek hc⟩

theorem Ready.mono (h : Ready s o) (hcalled : s.f.called ⊆ s'.f.called)
    (hclear : ∀ b, o = .bind b → ∀ k ∈ b.pendingBeforeBind, ∀ e, s.f.Known e →
      e.ackKey = some k → Clear s b.ws e → Clear s' b.ws e) : Ready s' o := by
  cases o with
  | drain e => trivial
  | bind b => exact Candidates.mono h hcalled (hclear b rfl)

/-- Nothing came into the buffer, and no connection opened. -/
structure Still (s s' : State) : Prop where
  called : s.f.called ⊆ s'.f.called
  eventBuffer : s'.f.eventBuffer.Sublist s.f.eventBuffer
  bound : s'.f.bound = s.f.bound
  writes : s'.f.writes = s.f.writes
  openWs : ∀ c, s'.f.openWs = some c → s.f.openWs = some c
  ws : ∀ c, s'.f.ws = some c → s.f.ws = some c
  live : s'.live.Subperm s.live
  sends : s'.sends ⊆ s.sends

theorem Still.clear (h : Still s s') (hc : Clear s ws e) : Clear s' ws e :=
  hc.mono h.eventBuffer.subset h.sends h.live.subset

theorem Still.ready (h : Still s s') (ho : Ready s o) : Ready s' o :=
  ho.mono h.called fun _ _ _ _ _ _ _ => h.clear

theorem State.binds_of_free (hfree : s.holder = none) : s.binds = s.waitingBinds := by
  unfold State.binds
  rw [hfree]

theorem State.waitingBinds_sublist (hw : s'.waiters.Sublist s.waiters) :
    s'.waitingBinds.Sublist s.waitingBinds := hw.filterMap _

theorem State.binds_sublist (hholder : s'.holder = s.holder)
    (hw : s'.waiters.Sublist s.waiters) : s'.binds.Sublist s.binds := by
  have hsub := State.waitingBinds_sublist hw
  unfold State.binds
  rw [hholder]
  split
  · exact hsub.cons_cons _
  · exact hsub.cons_cons _
  · exact hsub

theorem State.waitingBinds_sublist_binds (s : State) : s.waitingBinds.Sublist s.binds := by
  unfold State.binds
  split
  · exact List.sublist_cons_self _ _
  · exact List.sublist_cons_self _ _
  · exact List.Sublist.refl _

theorem State.binds_released (hholder : s'.holder = none)
    (hw : s'.waiters.Sublist s.waiters) : s'.binds.Sublist s.binds := by
  rw [State.binds_of_free hholder]
  exact (State.waitingBinds_sublist hw).trans s.waitingBinds_sublist_binds

/-- What does not depend on who holds the lock. -/
theorem Ordered.still_lines (h : Ordered s) (hs : Still s s') :
    Lines s'.f s'.live ∧ (∀ c, s'.f.ws = some c → c ∈ s'.f.bound) ∧
      (∀ p ∈ s'.sends, ∀ w ∈ s'.live, w.event = p.write.event → w = p.write) ∧
      s'.f.eventBuffer.Pairwise fun x y => ¬ Precedes y x :=
  ⟨h.lines.subperm hs.live hs.called (hs.bound ▸ fun _ => id)
      (Nat.le_of_eq hs.writes.symm),
    fun c hc => hs.bound ▸ h.bound c (hs.ws c hc),
    fun p hp w hw => h.sole p (hs.sends hp) w (hs.live.subset hw),
    h.buffer.sublist hs.eventBuffer⟩

/-- A write may be over, and coroutines may be gone. -/
theorem Ordered.still (h : Ordered s) (hs : Still s s') (hholder : s'.holder = s.holder)
    (hw : s'.waiters.Sublist s.waiters) : Ordered s' := by
  have hflush : s'.holderWrite = s.holderWrite := by
    unfold State.holderWrite
    rw [hholder]
  obtain ⟨hlines, hbound, hsole, hbuffer⟩ := h.still_lines hs
  refine
    { lines := hlines, bound := hbound, sole := hsole, buffer := hbuffer
      behind := ?_, unwritten := ?_
      waiting := fun o ho => hs.ready (h.waiting o (hw.subset ho))
      flushing := fun o w ho => hs.ready (h.flushing o w (hholder ▸ ho)), resending := ?_
      solo := Nat.le_trans (State.binds_sublist hholder hw).length_le h.solo }
  · intro e he c hc w hw hwc hp
    unfold State.FlushOn
    rw [hflush]
    exact h.behind e (hs.eventBuffer.subset he) c (hs.openWs c hc) w (hs.live.subset hw) hwc hp
  · intro e he w hw hwe
    rw [hholder]
    exact h.unwritten e (hs.eventBuffer.subset he) w (hs.live.subset hw) hwe
  · intro b rest w ho
    obtain ⟨hc, hne⟩ := h.resending b rest w (hholder ▸ ho)
    refine ⟨hc.mono hs.called fun _ _ _ _ _ => hs.clear, ?_⟩
    exact fun p hp => hne p (hs.sends hp)

/-- The lock is let go. If the holder's event is still in the buffer, its write is over
and nothing has overtaken it. -/
theorem Ordered.release (h : Ordered s) (hs : Still s s') (hholder : s'.holder = none)
    (hw : s'.waiters.Sublist s.waiters)
    (hhead : ∀ w ∈ s.holderWrite, w.event ∈ s'.f.eventBuffer →
      w ∉ s'.live ∧ s'.NotOvertaken w.event s'.f.openWs) : Ordered s' := by
  obtain ⟨hlines, hbound, hsole, hbuffer⟩ := h.still_lines hs
  refine
    { lines := hlines, bound := hbound, sole := hsole, buffer := hbuffer
      behind := ?_, unwritten := ?_
      waiting := fun o ho => hs.ready (h.waiting o (hw.subset ho))
      flushing := ?_, resending := ?_
      solo := Nat.le_trans (State.binds_released hholder hw).length_le h.solo }
  · intro e he c hc w hw hwc hp
    obtain ⟨v, hv, rfl, -⟩ := h.behind e (hs.eventBuffer.subset he) c (hs.openWs c hc) w
      (hs.live.subset hw) hwc hp
    exact absurd hp ((hhead v hv he).2 c hc w hw hwc)
  · intro e he w hw hwe
    obtain ⟨o, ho⟩ := h.unwritten e (hs.eventBuffer.subset he) w (hs.live.subset hw) hwe
    have hv : s.holderWrite = some w := by simp [State.holderWrite, ho]
    exact absurd hw (hhead w hv (hwe ▸ he)).1
  · intro o w ho
    rw [hholder] at ho
    cases ho
  · intro b rest w ho
    rw [hholder] at ho
    cases ho

/-! ### A new write -/

theorem State.live_hold (hfree : s.holder = none) (hholder : s'.holderWrite = some w)
    (hwritten : s'.f.written = s.f.written) (hsends : s'.sends = s.sends) :
    (w :: s.live).Perm s'.live := by
  have hnone : s.holderWrite = none := by simp [State.holderWrite, hfree]
  rw [State.live_eq, State.live_eq, hnone, hholder, hwritten, hsends]
  simp only [Option.toList_none, List.append_nil, Option.toList_some]
  rw [← List.append_assoc]
  exact (List.perm_append_singleton _ _).symm

theorem State.live_withSend (s : State) (e : Event) (buffered : Bool) (ws : Ws)
    (hwritten : ((s.withCall e buffered).f.claim e).written = s.f.written) :
    ((⟨s.f.writes, e, ws⟩ : Write) :: s.live).Perm (s.withSend e buffered ws).live := by
  have heq : (s.withSend e buffered ws).live =
      s.f.written ++ (s.sends.map (·.write) ++ [⟨s.f.writes, e, ws⟩] ++
        s.holderWrite.toList) := by
    rw [State.live_eq]
    show ((s.withCall e buffered).f.claim e).written ++ _ = _
    rw [hwritten]
    simp [State.withSend, State.holderWrite]
  rw [heq, State.live_eq]
  refine List.perm_middle.symm.trans ((List.Perm.append_left _ ?_))
  rw [List.append_assoc]
  exact List.perm_middle.symm

/-- The candidates lose nothing by a write of another event. -/
theorem Clear.write (h : Clear s ws e) (hbuffer : s'.f.eventBuffer ⊆ s.f.eventBuffer)
    (hsends : ∀ p ∈ s'.sends, p.write.event = e → p ∈ s.sends)
    (hlive : ∀ v ∈ s'.live, v = w ∨ v ∈ s.live) (hne : w.event ≠ e) : Clear s' ws e := by
  refine ⟨fun he => h.unbuffered (hbuffer he), fun p hp hpe => h.unsent p (hsends p hp hpe) hpe,
    fun v hv hve => ?_⟩
  rcases hlive v hv with rfl | hv
  · exact absurd hve hne
  · exact h.unwritten v hv hve

/-- A flush that starts writes the head, which nothing has overtaken. -/
theorem Ordered.startFlush (h : Ordered s) (hs : Sound cfg s) (hfree : s.holder = none)
    (hr : Ready s o) (hsolo : ∀ b, o = .bind b → s.binds = []) {rest : List Event} {c : Ws}
    (hb : s.f.eventBuffer = e :: rest) (hw : s.f.openWs = some c) :
    Ordered { s with
      f := (s.f.claim e).beginWrite
      holder := some (.flushing o ⟨s.f.writes, e, c⟩) } := by
  have hbuf : e ∈ s.f.eventBuffer := by simp [hb]
  have hknown : s.f.Known e := hs.census.buffer e hbuf
  obtain ⟨pending, inFlight, heq, -, -, -⟩ := Forwarder.claim_spec hs.census hknown
  rw [heq]
  obtain ⟨t, ht⟩ : ∃ t : State, t = { s with
      f := Forwarder.beginWrite { s.f with pendingAcks := pending, inFlightAcks := inFlight }
      holder := some (.flushing o ⟨s.f.writes, e, c⟩) } := ⟨_, rfl⟩
  have hnew : t.holderWrite = some ⟨s.f.writes, e, c⟩ := by rw [ht]; rfl
  have hperm := State.live_hold hfree hnew (by rw [ht]; rfl) (by rw [ht])
  have hlive : ∀ v ∈ t.live, v = ⟨s.f.writes, e, c⟩ ∨ v ∈ s.live := fun v hv =>
    List.mem_cons.mp (hperm.mem_iff.mpr hv)
  have hcalled : t.f.called = s.f.called := by rw [ht]; rfl
  have hbuffer : t.f.eventBuffer = s.f.eventBuffer := by rw [ht]; rfl
  have hsends : t.sends = s.sends := by rw [ht]
  -- Nobody holds the lock, so nothing in the buffer is being written.
  have hnone : s.holderWrite = none := by simp [State.holderWrite, hfree]
  have hcold : ∀ x ∈ s.f.eventBuffer, ∀ v ∈ s.live, v.event ≠ x := by
    intro x hx v hv hvx
    obtain ⟨o', ho'⟩ := h.unwritten x hx v hv hvx
    rw [hfree] at ho'
    cases ho'
  have hfront : ∀ x ∈ s.f.eventBuffer, ∀ v ∈ s.live, v.ws = c → ¬ Precedes x v.event := by
    intro x hx v hv hvc hp
    obtain ⟨u, hu, -⟩ := h.behind x hx c hw v hv hvc hp
    rw [hnone] at hu
    cases hu
  have hclear : ∀ {ws x}, Clear s ws x → Clear t ws x := by
    intro ws x hx
    refine hx.write (w := ⟨s.f.writes, e, c⟩) (hbuffer ▸ fun _ => id)
      (fun p hp _ => hsends ▸ hp) hlive ?_
    rintro rfl
    exact hx.unbuffered hbuf
  have hready : ∀ o', Ready s o' → Ready t o' := fun o' ho' =>
    ho'.mono (hcalled ▸ fun _ => id) fun _ _ _ _ _ _ _ => hclear
  rw [← ht]
  refine
    { lines := ?_, bound := ?_, sole := ?_, buffer := hbuffer ▸ h.buffer, behind := ?_
      unwritten := ?_, waiting := ?_, flushing := ?_, resending := ?_, solo := ?_ }
  · have hcons : Lines t.f (⟨s.f.writes, e, c⟩ :: s.live) :=
      h.lines.cons (hcalled ▸ fun _ => id) (by rw [ht]; rfl) (by rw [ht]; rfl)
        (hknown.imp fun _ hk => hcalled ▸ hk) (h.bound c (Forwarder.openWs_some hw).1)
        (hfront e hbuf) fun v hv hve => absurd hve (hcold e hbuf v hv)
    exact hcons.subperm hperm.symm.subperm (fun _ => id) (fun _ => id) (Nat.le_refl _)
  · rw [ht]
    exact h.bound
  · intro p hp v hv hvp
    rw [hsends] at hp
    rcases hlive v hv with rfl | hv
    · have hep : e = p.write.event := hvp
      exact absurd hbuf (hep ▸ hs.apart p hp)
    · exact h.sole p hp v hv hvp
  · intro x hx c' hc' v hv hvc hp
    have hopen : s.f.openWs = some c' := by
      rw [ht] at hc'
      exact hc'
    rw [hbuffer] at hx
    rcases hlive v hv with rfl | hv
    · rw [hb] at hx
      rcases List.mem_cons.mp hx with rfl | hx
      · exact absurd hp (Precedes.irrefl _)
      · have hsorted := h.buffer
        rw [hb] at hsorted
        exact absurd hp ((List.pairwise_cons.mp hsorted).1 x hx)
    · rw [hw] at hopen
      cases hopen
      exact absurd hp (hfront x hx v hv hvc)
  · intro x hx v hv hvx
    rw [hbuffer] at hx
    rcases hlive v hv with rfl | hv
    · exact ⟨o, by rw [ht]⟩
    · exact absurd hvx (hcold x hx v hv)
  · rw [ht]
    rw [ht] at hready
    exact fun o' ho' => hready o' (h.waiting o' ho')
  · intro o' w' ho'
    rw [ht] at ho'
    cases ho'
    exact hready o hr
  · intro b' rest' w' ho'
    rw [ht] at ho'
    cases ho'
  · have hwait := State.binds_of_free hfree
    have hsame : t.waitingBinds = s.waitingBinds := by rw [ht]; rfl
    unfold State.binds
    rw [hsame, ← hwait, ht]
    cases o with
    | drain x => exact h.solo
    | bind b => simp [hsolo b rfl]

variable {rest : List AckId}

/-- A resend writes an event that its connection has not seen. -/
theorem Ordered.startResend (h : Ordered s) (hs : Sound cfg s) (hfree : s.holder = none) {k : AckId}
    (hr : Candidates s b.ws (k :: rest)) (hb : Bound s b) (hsolo : s.binds = [])
    (hx : lookup s.f.pendingAcks k = some e) {c : Ws} (hw : s.f.openWs = some c) :
    Ordered { s with
      f := s.f.beginWrite
      holder := some (.resending b rest ⟨s.f.writes, e, c⟩) } := by
  obtain ⟨hpend, hek⟩ := lookup_some hx
  obtain ⟨hknown, hcrit⟩ := hs.census.pending e hpend
  obtain rfl : c = b.ws := hb.openWs hw
  have hmine : Clear s b.ws e := by
    obtain ⟨x, hxk, hxe, hc⟩ := hr.clear k List.mem_cons_self
    rwa [hs.census.eq_of_ackKey hknown hxk hek hxe] at hc
  obtain ⟨t, ht⟩ : ∃ t : State, t = { s with
      f := s.f.beginWrite
      holder := some (.resending b rest ⟨s.f.writes, e, b.ws⟩) } := ⟨_, rfl⟩
  have hnew : t.holderWrite = some ⟨s.f.writes, e, b.ws⟩ := by rw [ht]; rfl
  have hperm := State.live_hold hfree hnew (by rw [ht]; rfl) (by rw [ht])
  have hlive : ∀ v ∈ t.live, v = ⟨s.f.writes, e, b.ws⟩ ∨ v ∈ s.live := fun v hv =>
    List.mem_cons.mp (hperm.mem_iff.mpr hv)
  have hcalled : t.f.called = s.f.called := by rw [ht]; rfl
  have hbuffer : t.f.eventBuffer = s.f.eventBuffer := by rw [ht]; rfl
  have hsends : t.sends = s.sends := by rw [ht]
  have hnone : s.holderWrite = none := by simp [State.holderWrite, hfree]
  have hnever : ∀ {x}, ¬ Precedes x e := by
    rintro x ⟨-, hno, -⟩
    rw [hno] at hcrit
    cases hcrit
  -- Another candidate is another event.
  have hclear : ∀ {ws x}, x ≠ e → Clear s ws x → Clear t ws x := fun hne hx =>
    hx.write (w := ⟨s.f.writes, e, b.ws⟩) (hbuffer ▸ fun _ => id) (fun p hp _ => hsends ▸ hp)
      hlive hne.symm
  rw [← ht]
  refine
    { lines := ?_, bound := ?_, sole := ?_, buffer := hbuffer ▸ h.buffer, behind := ?_
      unwritten := ?_, waiting := ?_, flushing := ?_, resending := ?_, solo := ?_ }
  · have hcons : Lines t.f (⟨s.f.writes, e, b.ws⟩ :: s.live) :=
      h.lines.cons (hcalled ▸ fun _ => id) (by rw [ht]; rfl) (by rw [ht]; rfl)
        (hknown.imp fun _ hk => hcalled ▸ hk) (h.bound _ (Forwarder.openWs_some hw).1)
        (fun v _ _ hp => absurd hcrit (by simp [hp.1]))
        fun v hv hve => ⟨hmine.unwritten v hv hve, hcrit⟩
    exact hcons.subperm hperm.symm.subperm (fun _ => id) (fun _ => id) (Nat.le_refl _)
  · rw [ht]
    exact h.bound
  · intro p hp v hv hvp
    rw [hsends] at hp
    rcases hlive v hv with rfl | hv
    · exact absurd hvp.symm (hmine.unsent p hp)
    · exact h.sole p hp v hv hvp
  · intro x hx' c' hc' v hv hvc hp
    rw [hbuffer] at hx'
    rcases hlive v hv with rfl | hv
    · exact absurd hp hnever
    · have hopen : s.f.openWs = some c' := by
        rw [ht] at hc'
        exact hc'
      obtain ⟨u, hu, -⟩ := h.behind x hx' c' hopen v hv hvc hp
      rw [hnone] at hu
      cases hu
  · intro x hx' v hv hvx
    rw [hbuffer] at hx'
    rcases hlive v hv with rfl | hv
    · have hex : e = x := hvx
      exact absurd (hex ▸ hx') hmine.unbuffered
    · obtain ⟨o', ho'⟩ := h.unwritten x hx' v hv hvx
      rw [hfree] at ho'
      cases ho'
  · intro o ho
    rw [ht] at ho
    cases o with
    | drain x => trivial
    | bind b' =>
      have hin : b' ∈ s.binds := State.mem_binds_waiting ho
      rw [hsolo] at hin
      cases hin
  · intro o' w' ho'
    rw [ht] at ho'
    cases ho'
  · intro b' rest' w' ho'
    have hnodup := List.nodup_cons.mp hr.nodup
    have hrest : Candidates t b.ws rest := by
      refine ⟨hnodup.2, fun k' hk' => ?_⟩
      obtain ⟨x, hxk, hxe, hc⟩ := hr.clear k' (List.mem_cons_of_mem _ hk')
      refine ⟨x, hxk.imp fun _ hk => hcalled ▸ hk, hxe, hclear ?_ hc⟩
      rintro rfl
      rw [hek, Option.some.injEq] at hxe
      exact hnodup.1 (hxe ▸ hk')
    rw [ht] at ho'
    cases ho'
    exact ⟨hrest, hsends ▸ hmine.unsent⟩
  · have hwait := State.binds_of_free hfree
    have hsame : t.waitingBinds = s.waitingBinds := by rw [ht]; rfl
    unfold State.binds
    rw [hsame, ← hwait, ht, hsolo]
    simp

/-- A direct send writes at once; the condition says it overtakes nothing. -/
theorem Ordered.withSend (h : Ordered s) (hs : Sound cfg s) (he : Fresh s e) (buffered : Bool)
    {c : Ws} (hw : s.f.openWs = some c)
    (hok : ∀ x ∈ s.f.eventBuffer, Precedes x e → s.FlushOn x c) :
    Ordered (s.withSend e buffered c) := by
  have hcensus := he.census hs.census buffered
  have hnew : (s.withCall e buffered).f.Known e := ⟨buffered, List.mem_cons_self⟩
  obtain ⟨pending, inFlight, heq, -, -, -⟩ := Forwarder.claim_spec hcensus hnew
  have hperm := s.live_withSend e buffered c (by rw [heq]; rfl)
  obtain ⟨t, ht⟩ : ∃ t : State, t = s.withSend e buffered c := ⟨_, rfl⟩
  rw [← ht] at hperm ⊢
  have hlive : ∀ v ∈ t.live, v = ⟨s.f.writes, e, c⟩ ∨ v ∈ s.live := fun v hv =>
    List.mem_cons.mp (hperm.mem_iff.mpr hv)
  unfold State.withSend at ht
  rw [heq] at ht
  have hcalled : s.f.called ⊆ t.f.called := by
    rw [ht]
    exact fun _ hx => List.mem_cons_of_mem _ hx
  have hbuffer : t.f.eventBuffer = s.f.eventBuffer := by rw [ht]; rfl
  have hold : ∀ x, s.f.Known x → x ≠ e := fun x hx hxe => he.unknown hs.census (hxe ▸ hx)
  have hsends : ∀ p ∈ t.sends, s.f.Known p.write.event → p ∈ s.sends := by
    intro p hp hk
    rw [ht] at hp
    rcases List.mem_append.mp hp with hp | hp
    · exact hp
    · rw [List.mem_singleton.mp hp] at hk
      exact absurd rfl (hold _ hk)
  -- No live write is of this event or of a later one.
  have hearlier : ∀ v ∈ s.live, ¬ Precedes e v.event := by
    intro v hv hp
    obtain ⟨bf, hk⟩ := (h.lines.numbered v hv).2.1
    have hlt := hs.census.numbered _ hk
    have hcall : e.call < v.event.call := hp.2.2.2.2
    rw [he.number] at hcall
    exact absurd hlt (Nat.not_lt_of_lt hcall)
  have hnone : ∀ v ∈ s.live, v.event ≠ e := fun v hv =>
    hold _ (h.lines.numbered v hv).2.1
  have hclear : ∀ {ws x}, s.f.Known x → Clear s ws x → Clear t ws x := fun hk hx =>
    hx.write (w := ⟨s.f.writes, e, c⟩) (hbuffer ▸ fun _ => id)
      (fun p hp hpe => hsends p hp (hpe ▸ hk)) hlive (hold _ hk).symm
  have hready : ∀ o, Ready s o → Ready t o := fun o ho =>
    ho.mono hcalled fun _ _ _ _ _ hk _ => hclear hk
  have hholder : t.holder = s.holder := by rw [ht]
  have hwaiters : t.waiters = s.waiters := by rw [ht]
  refine
    { lines := ?_, bound := ?_, sole := ?_, buffer := hbuffer ▸ h.buffer, behind := ?_
      unwritten := ?_, waiting := fun o ho => hready o (h.waiting o (hwaiters ▸ ho))
      flushing := fun o w ho => hready o (h.flushing o w (hholder ▸ ho)), resending := ?_
      solo := Nat.le_trans
        (State.binds_sublist hholder (hwaiters ▸ List.Sublist.refl _)).length_le h.solo }
  · have hcons : Lines t.f (⟨s.f.writes, e, c⟩ :: s.live) :=
      h.lines.cons hcalled (by rw [ht]; rfl) (by rw [ht]; rfl)
        (by rw [ht]; exact hnew) (h.bound c (Forwarder.openWs_some hw).1)
        (fun v hv _ => hearlier v hv) fun v hv hve => absurd hve (hnone v hv)
    exact hcons.subperm hperm.symm.subperm (fun _ => id) (fun _ => id) (Nat.le_refl _)
  · rw [ht]
    exact h.bound
  · intro p hp v hv hvp
    rw [ht] at hp
    rcases List.mem_append.mp hp with hp | hp
    · rcases hlive v hv with rfl | hv
      · exact absurd hvp.symm (hold _ ⟨_, hs.known p hp⟩)
      · exact h.sole p hp v hv hvp
    · rw [List.mem_singleton.mp hp] at hvp ⊢
      rcases hlive v hv with rfl | hv
      · rfl
      · exact absurd hvp (hnone v hv)
  · intro x hx c' hc' v hv hvc hp
    have hopen : s.f.openWs = some c' := by
      rw [ht] at hc'
      exact hc'
    have hflush : t.holderWrite = s.holderWrite := by
      unfold State.holderWrite
      rw [hholder]
    unfold State.FlushOn
    rw [hflush]
    rw [hbuffer] at hx
    rcases hlive v hv with rfl | hv
    · rw [hw] at hopen
      cases hopen
      exact hok x hx hp
    · exact h.behind x hx c' hopen v hv hvc hp
  · intro x hx v hv hvx
    rw [hholder]
    rw [hbuffer] at hx
    rcases hlive v hv with rfl | hv
    · exact absurd hvx.symm (hold x (hs.census.buffer x hx))
    · exact h.unwritten x hx v hv hvx
  · intro b rest w ho
    obtain ⟨hc, hne⟩ := h.resending b rest w (hholder ▸ ho)
    have hk : s.f.Known w.event := (hs.resending b rest w (hholder ▸ ho)).known
    refine ⟨hc.mono hcalled fun _ _ _ hk _ => hclear hk, fun p hp hpe => ?_⟩
    exact hne p (hsends p hp (hpe ▸ hk)) hpe

/-! ### A new event in the buffer -/

/-- The ackIds that binds under way are going to resend. -/
def State.candidates (s : State) : List AckId :=
  s.waitingBinds.flatMap (·.pendingBeforeBind) ++ match s.holder with
    | some (.flushing (.bind b) _) => b.pendingBeforeBind
    | some (.resending _ rest _) => rest
    | _ => []

/-- An event at the end of the buffer: nothing that it precedes is in the buffer, nor
has been written where it may be written next. -/
theorem Ordered.bufferEvent (h : Ordered s) (cfg : Settings)
    (hahead : ∀ x ∈ s.f.eventBuffer, ¬ Precedes e x)
    (hover : s.NotOvertaken e s.f.openWs) (hfresh : ∀ v ∈ s.live, v.event ≠ e)
    (hcand : ∀ k ∈ s.candidates, e.ackKey ≠ some k) :
    Ordered { s with f := s.f.bufferEvent cfg e } := by
  obtain ⟨rest, evictions, heq, hrest⟩ := Forwarder.bufferEvent_spec cfg s.f e
  rw [heq]
  have hsub : rest.Sublist s.f.eventBuffer := by
    rcases hrest with ⟨hr, -⟩ | ⟨v, hv, -⟩
    · rw [hr]
    · exact hv.sub
  obtain ⟨t, ht⟩ : ∃ t : State, t =
    { s with f := { s.f with eventBuffer := rest ++ [e], evictions } } := ⟨_, rfl⟩
  have hlive : t.live = s.live := by rw [ht]; rfl
  have hmem : ∀ x ∈ t.f.eventBuffer, x ∈ s.f.eventBuffer ∨ x = e := by
    intro x hx
    rw [ht] at hx
    rcases List.mem_append.mp hx with hx | hx
    · exact .inl (hsub.subset hx)
    · exact .inr (List.mem_singleton.mp hx)
  have hclear : ∀ k ∈ s.candidates, ∀ {ws x}, x.ackKey = some k → Clear s ws x → Clear t ws x := by
    intro k hk ws x hxk hx
    refine ⟨fun hin => ?_, by rw [ht]; exact hx.unsent, hlive ▸ hx.unwritten⟩
    rcases hmem x hin with hin | rfl
    · exact hx.unbuffered hin
    · exact hcand k hk hxk
  have hcalled : t.f.called = s.f.called := by rw [ht]
  have hready : ∀ o, (∀ b, o = .bind b → ∀ k ∈ b.pendingBeforeBind, k ∈ s.candidates) →
      Ready s o → Ready t o := fun o hin ho =>
    ho.mono (hcalled ▸ fun _ => id) fun b hob k hk _ _ hek => hclear k (hin b hob k hk) hek
  have hholder : t.holder = s.holder := by rw [ht]
  have hflush : t.holderWrite = s.holderWrite := by
    unfold State.holderWrite
    rw [hholder]
  have hwaiters : t.waiters = s.waiters := by rw [ht]
  rw [← ht]
  refine
    { lines := ?_, bound := by rw [ht]; exact h.bound, sole := ?_, buffer := ?_, behind := ?_
      unwritten := ?_, waiting := ?_, flushing := ?_, resending := ?_
      solo := Nat.le_trans
        (State.binds_sublist hholder (hwaiters ▸ List.Sublist.refl _)).length_le h.solo }
  · rw [hlive, ht]
    exact h.lines.subperm (List.Subperm.refl _) (fun _ => id) (fun _ => id) (Nat.le_refl _)
  · rw [hlive]
    rw [ht]
    exact h.sole
  · rw [ht]
    refine List.pairwise_append.mpr ⟨h.buffer.sublist hsub, List.pairwise_singleton _ _, ?_⟩
    intro x hx y hy
    rw [List.mem_singleton.mp hy]
    exact hahead x (hsub.subset hx)
  · intro x hx c hc v hv hvc hp
    have hopen : s.f.openWs = some c := by
      rw [ht] at hc
      exact hc
    unfold State.FlushOn
    rw [hflush]
    rw [hlive] at hv
    rcases hmem x hx with hx | rfl
    · exact h.behind x hx c hopen v hv hvc hp
    · exact absurd hp (hover c hopen v hv hvc)
  · intro x hx v hv hvx
    rw [hholder]
    rw [hlive] at hv
    rcases hmem x hx with hx | rfl
    · exact h.unwritten x hx v hv hvx
    · exact absurd hvx (hfresh v hv)
  · intro o ho
    rw [hwaiters] at ho
    refine hready o (fun b hob k hk => ?_) (h.waiting o ho)
    refine List.mem_append_left _ (List.mem_flatMap.mpr ⟨b, ?_, hk⟩)
    exact State.mem_waitingBinds.mpr (hob ▸ ho)
  · intro o w ho
    rw [hholder] at ho
    refine hready o (fun b hob k hk => List.mem_append_right _ ?_) (h.flushing o w ho)
    rw [ho, hob]
    exact hk
  · intro b rest w ho
    rw [hholder] at ho
    obtain ⟨hc, hne⟩ := h.resending b rest w ho
    refine ⟨hc.mono (hcalled ▸ fun _ => id) fun k hk _ _ hek => hclear k ?_ hek, ?_⟩
    · refine List.mem_append_right _ ?_
      rw [ho]
      exact hk
    · rw [ht]
      exact hne

/-! ## The forwarder's operations -/

/-- An operation that brings nothing into the buffer, opens no connection and ends no
write with success. -/
structure Forwarder.Steady (f f' : Forwarder) : Prop where
  called : f'.called = f.called
  eventBuffer : f'.eventBuffer.Sublist f.eventBuffer
  bound : f'.bound = f.bound
  writes : f'.writes = f.writes
  written : f'.written = f.written
  openWs : ∀ c, f'.openWs = some c → f.openWs = some c
  ws : ∀ c, f'.ws = some c → f.ws = some c

namespace Forwarder

variable {f f' g : Forwarder}

theorem Steady.refl (f : Forwarder) : f.Steady f :=
  ⟨rfl, List.Sublist.refl _, rfl, rfl, rfl, fun _ => id, fun _ => id⟩

theorem Steady.trans (h : f.Steady f') (h' : f'.Steady g) : f.Steady g :=
  ⟨h'.called.trans h.called, h'.eventBuffer.trans h.eventBuffer, h'.bound.trans h.bound,
    h'.writes.trans h.writes, h'.written.trans h.written, fun c hc => h.openWs c (h'.openWs c hc),
    fun c hc => h.ws c (h'.ws c hc)⟩

theorem clearInFlight_steady (f : Forwarder) (e : Event) : f.Steady (f.clearInFlight e) := by
  unfold clearInFlight
  split
  · exact .refl f
  · split
    · exact { Steady.refl f with }
    · exact .refl f

theorem unclaim_steady (f : Forwarder) (e : Event) : f.Steady (f.unclaim e) := by
  unfold unclaim
  split
  · exact .refl f
  · split
    · exact { Steady.refl f with }
    · exact .refl f

theorem unclaimHead_steady (f : Forwarder) (e : Event) : f.Steady (f.unclaimHead e) := by
  unfold unclaimHead popHead
  split
  · exact f.unclaim_steady e
  · split
    · exact { Steady.refl f with eventBuffer := List.tail_sublist _ }
    · exact .refl f

theorem acknowledge_steady (f : Forwarder) (k : AckId) : f.Steady (f.acknowledge k) := by
  unfold acknowledge
  split
  · exact .refl f
  · exact { Steady.refl f with }

/-- A connection that closes was open before. -/
theorem openWs_shrinks {closing ended : List Ws} (hc : f.closing ⊆ closing)
    (he : f.ended ⊆ ended) (c : Ws)
    (h : ({ f with closing, ended } : Forwarder).openWs = some c) : f.openWs = some c := by
  obtain ⟨hws, hopen⟩ := openWs_some h
  refine Option.filter_eq_some_iff.mpr ⟨hws, ?_⟩
  unfold isOpen at hopen ⊢
  rw [decide_eq_true_iff] at hopen ⊢
  exact ⟨fun hin => hopen.1 (hc hin), fun hin => hopen.2 (he hin)⟩

theorem retire_openWs {ws c : Ws} (h : (f.retireTimedOutConnection ws).openWs = some c) :
    f.openWs = some c ∧ c ≠ ws := by
  obtain ⟨hws, hopen⟩ := openWs_some h
  have hkeep : f.ws = some c := by
    unfold retireTimedOutConnection at hws
    dsimp only at hws
    split at hws
    · cases hws
    · exact hws
  unfold isOpen retireTimedOutConnection at hopen
  simp only [List.mem_cons, not_or, decide_eq_true_eq] at hopen
  refine ⟨Option.filter_eq_some_iff.mpr ⟨hkeep, ?_⟩, hopen.2.1⟩
  unfold isOpen
  rw [decide_eq_true_iff]
  exact ⟨hopen.1, hopen.2.2⟩

theorem retire_steady (f : Forwarder) (ws : Ws) : f.Steady (f.retireTimedOutConnection ws) :=
  { Steady.refl f with
    openWs := fun _ hc => (retire_openWs hc).1
    ws := by
      intro c hc
      unfold retireTimedOutConnection at hc
      dsimp only at hc
      split at hc
      · cases hc
      · exact hc }

theorem endWrite_steady (f : Forwarder) (w : Write) {outcome : Outcome} (h : outcome ≠ .ok) :
    f.Steady (f.endWrite w outcome) := by
  cases outcome with
  | ok => exact absurd rfl h
  | timedOut => exact { f.retire_steady w.ws with }
  | failed | cancelled | deadline => exact { Steady.refl f with }

theorem cancelledWriteWs_steady (f : Forwarder) (ws : Option Ws) :
    f.Steady { f with cancelledWriteWs := ws } := { Steady.refl f with }

theorem rebindDeadline_steady (f : Forwarder) : f.Steady f.rebindDeadline := by
  unfold rebindDeadline
  split
  · exact .refl f
  · exact (f.cancelledWriteWs_steady none).trans (retire_steady _ _)

theorem bindDone_steady (f : Forwarder) (b : Bind) : f.Steady (f.bindDone b) :=
  { Steady.refl f with }

end Forwarder

variable {f' : Forwarder}

theorem Still.of_steady (h : s.f.Steady f') : Still s { s with f := f' } :=
  { h with
    called := h.called ▸ fun _ => id
    live := by
      rw [State.live_eq, State.live_eq]
      show (f'.written ++ _).Subperm _
      rw [h.written]
      exact List.Subperm.refl _
    sends := fun _ => id }

theorem Ordered.steady (h : Ordered s) (hf : s.f.Steady f') :
    Ordered { s with f := f' } :=
  h.still (.of_steady hf) rfl (List.Sublist.refl _)

/-! ## Recovery -/

theorem Ordered.resendPending (h : Ordered s) (hs : Sound cfg s) (hfree : s.holder = none)
    (hr : Candidates s b.ws rest) (hb : Bound s b) (hsolo : s.binds = []) :
    Ordered (s.resendPending b rest) := by
  induction rest with
  | nil => exact h.steady (s.f.bindDone_steady b)
  | cons k rest ih =>
    unfold State.resendPending
    split
    next =>
      have hnodup := (List.nodup_cons.mp hr.nodup).2
      exact ih ⟨hnodup, fun k' hk' => hr.clear k' (List.mem_cons_of_mem _ hk')⟩
    next x hx =>
      split
      next => exact h.steady (s.f.bindDone_steady b)
      next c hc => exact h.startResend hs hfree hr hb hsolo hx hc

theorem Ordered.flushed (h : Ordered s) (hs : Sound cfg s) (hfree : s.holder = none)
    (ho : Fit cfg s o) (hr : Ready s o) (hsolo : ∀ b, o = .bind b → s.binds = []) :
    Ordered (s.flushed o) := by
  cases o with
  | drain e => exact h.steady (s.f.clearInFlight_steady e)
  | bind b =>
    have hcand : Candidates s b.ws b.pendingBeforeBind := hr
    refine h.resendPending hs hfree ⟨hcand.nodup.filter _, fun k hk => ?_⟩
      (Awaiting.toBound ho) (hsolo b rfl)
    exact hcand.clear k (List.mem_of_mem_filter hk)

theorem Ordered.flushBuffer (h : Ordered s) (hs : Sound cfg s) (hfree : s.holder = none)
    (ho : Fit cfg s o) (hr : Ready s o) (hsolo : ∀ b, o = .bind b → s.binds = []) :
    Ordered (s.flushBuffer o) := by
  unfold State.flushBuffer
  split
  next e rest c hb hw => exact h.startFlush hs hfree hr hsolo hb hw
  next => exact h.flushed hs hfree ho hr hsolo

theorem Ordered.acquire (h : Ordered s) (hs : Sound cfg s) (ho : Fit cfg s o) (hr : Ready s o)
    (hsolo : ∀ b, o = .bind b → s.binds = []) : Ordered (s.acquire o) := by
  unfold State.acquire
  split
  next hfree => exact h.flushBuffer hs hfree.1 ho hr hsolo
  next =>
    have hready : ∀ o', Ready s o' → Ready { s with waiters := s.waiters ++ [o] } o' :=
      fun o' ho' => ho'.mono (fun _ => id) fun _ _ _ _ _ _ _ hc => { hc with }
    refine { h with waiting := ?_, flushing := ?_, resending := ?_, solo := ?_ }
    · intro o' ho'
      rcases List.mem_append.mp ho' with ho' | ho'
      · exact hready o' (h.waiting o' ho')
      · rw [List.mem_singleton.mp ho']
        exact hready o hr
    · exact fun o' w ho' => hready o' (h.flushing o' w ho')
    · intro b rest w ho'
      obtain ⟨hc, hne⟩ := h.resending b rest w ho'
      exact ⟨hc.mono (fun _ => id) fun _ _ _ _ _ hx => { hx with }, hne⟩
    · have hwait : ({ s with waiters := s.waiters ++ [o] } : State).waitingBinds =
          s.waitingBinds ++ o.bind?.toList := by
        cases o <;> simp [State.waitingBinds, Owner.bind?]
      have hlen : ({ s with waiters := s.waiters ++ [o] } : State).binds.length =
          s.binds.length + o.bind?.toList.length := by
        unfold State.binds
        rw [hwait]
        rcases s.holder with _ | ⟨_ | _, _⟩ | ⟨_, _, _⟩ <;>
          simp only [List.length_cons, List.length_append] <;> omega
      rw [hlen]
      cases o with
      | drain e => exact h.solo
      | bind b => simp [hsolo b rfl, Owner.bind?]

/-! ## The end of a recovery write -/

/-- A write that is over and did not succeed is not live any more. -/
theorem Ordered.not_live {live : List Write} (h : Ordered s) (hperm : (w :: live).Perm s.live) :
    w ∉ live := by
  intro hin
  have hnodup := (hperm.map (·.seq)).nodup_iff.mpr h.lines.distinct
  exact (List.nodup_cons.mp hnodup).1 (List.mem_map_of_mem hin)

/-- The bind that holds the lock is the only one. -/
theorem Ordered.solo_holder (h : Ordered s) (hh : ∃ w, s.holder = some (.flushing (.bind b) w) ∨
    ∃ rest, s.holder = some (.resending b rest w)) : s.waitingBinds = [] := by
  have hsolo := h.solo
  unfold State.binds at hsolo
  obtain ⟨w, hw | ⟨rest, hw⟩⟩ := hh
  · rw [hw] at hsolo
    simpa using hsolo
  · rw [hw] at hsolo
    simpa using hsolo

theorem Still.of_release (hw : s.holderWrite = some w) (h : s.f.Steady f') :
    Still s { s with f := f', holder := none } := by
  have hlive : ({ s with f := f', holder := none } : State).live =
      ({ s with holder := none } : State).live := by
    rw [State.live_eq, State.live_eq]
    show f'.written ++ _ = _
    rw [h.written]
    rfl
  exact { Still.of_steady h with
    live := hlive ▸ ((List.sublist_cons_self _ _).subperm.trans
      (State.live_release hw).subperm) }

variable {outcome : Outcome}

theorem Forwarder.endWrite_stays {c : Ws} (hno : outcome ≠ .deadline)
    (h : (s.f.endWrite w outcome).openWs = some c) : s.stays w outcome = some c := by
  cases outcome with
  | ok | failed | cancelled => exact h
  | timedOut =>
    have hret : (s.f.retireTimedOutConnection w.ws).openWs = some c := h
    obtain ⟨hc, hne⟩ := Forwarder.retire_openWs hret
    simp [State.stays, hc, hne]
  | deadline => exact absurd rfl hno

theorem State.headKept_steady (s : State) (w : Write) (outcome : Outcome) (h : outcome ≠ .ok) :
    (s.f.endWrite w outcome).Steady (s.headKept w outcome).f := by
  have hun := (s.f.endWrite w outcome).unclaimHead_steady w.event
  unfold State.headKept
  cases outcome with
  | ok => exact absurd rfl h
  | failed | timedOut => exact hun.trans (Forwarder.clearInFlight_steady _ _)
  | cancelled | deadline =>
    exact (hun.trans (Forwarder.cancelledWriteWs_steady _ _)).trans
      (Forwarder.clearInFlight_steady _ _)

/-- What a write of the holder leaves bound after the deadline of its drain. -/
theorem State.headKept_deadline {c : Ws}
    (h : (s.headKept w .deadline).f.rebindDeadline.openWs = some c) :
    s.stays w .deadline = some c := by
  have hws : (s.headKept w .deadline).f.cancelledWriteWs = some w.ws := by
    unfold State.headKept Forwarder.clearInFlight
    dsimp only
    split
    · rfl
    · split <;> rfl
  unfold Forwarder.rebindDeadline at h
  rw [hws] at h
  obtain ⟨hc, hne⟩ := Forwarder.retire_openWs h
  have hopen : s.f.openWs = some c :=
    (s.f.endWrite_steady w (by nofun)).openWs c
      ((s.headKept_steady w .deadline (by nofun)).openWs c hc)
  simp [State.stays, hopen, hne]

/-- A head that stays in the buffer has been overtaken by nothing. -/
theorem Ordered.keep (h : Ordered s) (hh : s.holder = some (.flushing o w)) (hf : s.f.Steady f')
    {stays : Option Ws} (hstays : ∀ c, f'.openWs = some c → stays = some c)
    (hok : w.event ∈ s.f.eventBuffer → s.NotOvertaken w.event stays) :
    Ordered { s with f := f', holder := none } ∧ Still s { s with f := f', holder := none } := by
  have hw : s.holderWrite = some w := by simp [State.holderWrite, hh]
  have hstill := Still.of_release hw hf
  refine ⟨h.release hstill rfl (List.Sublist.refl _) fun v hv hin => ?_, hstill⟩
  rw [hw] at hv
  cases hv
  refine ⟨fun hlive => ?_, fun c hc u hu hus => ?_⟩
  · have hgone := h.not_live (State.live_release hw)
    have heq : ({ s with f := f', holder := none } : State).live =
        ({ s with holder := none } : State).live := by
      rw [State.live_eq, State.live_eq]
      show f'.written ++ _ = _
      rw [hf.written]
      rfl
    exact hgone (heq ▸ hlive)
  · exact hok (hf.eventBuffer.subset hin) c (hstays c hc) u (hstill.live.subset hu) hus

/-- The head that was written leaves the buffer. -/
theorem Ordered.headWritten (h : Ordered s) (hs : Sound cfg s)
    (hh : s.holder = some (.flushing o w)) :
    Ordered (s.headWritten w) ∧ Still s (s.headWritten w) := by
  have hw : s.holderWrite = some w := by simp [State.holderWrite, hh]
  have hf := (hs.flushing o w hh).1
  have hclear := (s.f.endWrite w .ok).clearInFlight_steady w.event
  have hbuffer : ((s.f.endWrite w .ok).clearInFlight w.event).eventBuffer = s.f.eventBuffer := by
    unfold Forwarder.clearInFlight
    split
    · rfl
    · split <;> rfl
  obtain ⟨rest, hpop, hsub, hmem⟩ := Forwarder.popHead_spec hbuffer hs.bufferNodup
    (hf.head.imp_right And.left)
  have hstill : Still s (s.headWritten w) := by
    unfold State.headWritten
    rw [hpop]
    have hlive : ({ s with
        f := { (s.f.endWrite w .ok).clearInFlight w.event with eventBuffer := rest }
        holder := none } : State).live = w :: ({ s with holder := none } : State).live := by
      rw [State.live_eq, State.live_eq]
      show ((s.f.endWrite w .ok).clearInFlight w.event).written ++ _ = _
      rw [hclear.written]
      rfl
    exact
      { called := hclear.called ▸ fun _ => id, eventBuffer := hsub, bound := hclear.bound
        writes := hclear.writes, openWs := hclear.openWs, ws := hclear.ws
        live := hlive ▸ (State.live_release hw).subperm, sends := fun _ => id }
  refine ⟨h.release hstill rfl (List.Sublist.refl _) fun v hv hin => ?_, hstill⟩
  rw [hw] at hv
  cases hv
  unfold State.headWritten at hin
  rw [hpop] at hin
  exact absurd rfl ((hmem w.event).mp hin).2

theorem Ordered.settleFlush (h : Ordered s) (hs : Sound cfg s)
    (hh : s.holder = some (.flushing o w))
    (hok : outcome = .ok ∨ (w.event ∈ s.f.eventBuffer → s.NotOvertaken w.event (s.stays w outcome)))
    :
    Ordered (s.settleFlush o w outcome) := by
  have hr := h.flushing o w hh
  have hsolo : ∀ t : State, t.holder = none → t.waiters = s.waiters → ∀ b, o = .bind b →
      t.binds = [] := by
    rintro t hfree hwait b rfl
    rw [State.binds_of_free hfree, State.waitingBinds, hwait]
    exact h.solo_holder ⟨w, .inl hh⟩
  have hkept : ∀ {out}, out ≠ .ok → out ≠ .deadline → (w.event ∈ s.f.eventBuffer →
      s.NotOvertaken w.event (s.stays w out)) →
      Ordered (s.headKept w out) ∧ Still s (s.headKept w out) := by
    intro out hout hno hover
    have hsteady := (s.f.endWrite_steady w hout).trans (s.headKept_steady w out hout)
    refine h.keep hh hsteady (fun c hc => ?_) hover
    exact Forwarder.endWrite_stays hno ((s.headKept_steady w out hout).openWs c hc)
  cases outcome with
  | ok =>
    obtain ⟨hord, hstill⟩ := h.headWritten hs hh
    obtain ⟨hsound, hfit⟩ := hs.headWritten hh
    exact hord.flushBuffer hsound rfl hfit (hstill.ready hr) (hsolo _ rfl rfl)
  | failed =>
    obtain ⟨hord, hstill⟩ := hkept (by nofun) (by nofun) (hok.resolve_left (by nofun))
    obtain ⟨hsound, hfit, -⟩ := hs.headKept hh .failed (by nofun)
    exact hord.flushed hsound rfl hfit (hstill.ready hr) (hsolo _ rfl rfl)
  | timedOut =>
    obtain ⟨hord, hstill⟩ := hkept (by nofun) (by nofun) (hok.resolve_left (by nofun))
    obtain ⟨hsound, hfit, -⟩ := hs.headKept hh .timedOut (by nofun)
    exact hord.flushed hsound rfl hfit (hstill.ready hr) (hsolo _ rfl rfl)
  | cancelled =>
    have hord := (hkept (by nofun) (by nofun) (hok.resolve_left (by nofun))).1
    cases o with
    | drain e => exact hord.steady (Forwarder.clearInFlight_steady _ e)
    | bind b => exact hord
  | deadline =>
    have hsteady := ((s.f.endWrite_steady w (by nofun)).trans
      (s.headKept_steady w .deadline (by nofun))).trans (Forwarder.rebindDeadline_steady _)
    have hord := (h.keep hh hsteady (fun c hc => State.headKept_deadline hc)
      (hok.resolve_left (by nofun))).1
    cases o with
    | drain e => exact hord.steady (Forwarder.clearInFlight_steady _ e)
    | bind b => exact hord

theorem Ordered.settleResend (h : Ordered s) (hs : Sound cfg s)
    (hh : s.holder = some (.resending b rest w)) (outcome : Outcome) :
    Ordered (s.settleResend b rest w outcome) := by
  have hw : s.holderWrite = some w := by simp [State.holderWrite, hh]
  obtain ⟨hcand, -⟩ := h.resending b rest w hh
  have hsolo : ({ s with f := s.f.endWrite w outcome, holder := none } : State).binds = [] := by
    rw [State.binds_of_free rfl]
    exact h.solo_holder ⟨w, .inr ⟨rest, hh⟩⟩
  -- A flush has the lock while its event is in the buffer, and a resend does not.
  have hout : w.event ∉ s.f.eventBuffer := by
    intro hin
    obtain ⟨o, ho⟩ := h.unwritten w.event hin w (State.mem_live_holder hw) rfl
    rw [hh] at ho
    cases ho
  have hend : ∀ {t : State}, Still s t → t.holder = none → t.waiters = s.waiters → Ordered t := by
    intro t hstill hfree hwait
    refine h.release hstill hfree (hwait ▸ List.Sublist.refl _) fun v hv hin => ?_
    rw [hw] at hv
    cases hv
    exact absurd (hstill.eventBuffer.subset hin) hout
  have hfail : ∀ out, out ≠ .ok → Ordered { s with f := s.f.endWrite w out, holder := none } :=
    fun out hout => hend (Still.of_release hw (s.f.endWrite_steady w hout)) rfl rfl
  cases outcome with
  | ok =>
    have hstill : Still s { s with f := s.f.endWrite w .ok, holder := none } :=
      { called := fun _ => id, eventBuffer := List.Sublist.refl _, bound := rfl, writes := rfl
        openWs := fun _ => id, ws := fun _ => id
        live := (State.live_release hw).subperm, sends := fun _ => id }
    obtain ⟨hsound, hbound⟩ := hs.resendEnded hh .ok
    refine (hend hstill rfl rfl).resendPending hsound rfl ?_ hbound hsolo
    exact hcand.mono (fun _ => id) fun _ _ _ _ _ => hstill.clear
  | failed => exact (hfail .failed (by nofun)).steady (Forwarder.bindDone_steady _ b)
  | timedOut => exact (hfail .timedOut (by nofun)).steady (Forwarder.bindDone_steady _ b)
  | cancelled => exact hfail .cancelled (by nofun)
  | deadline => exact hfail .deadline (by nofun)

/-! ## The end of a direct write -/

/-- What binds are going to resend was sent before, and no direct send has it. -/
theorem Ordered.candidate (h : Ordered s) : ∀ k ∈ s.candidates,
    ∃ x, s.f.Known x ∧ x.ackKey = some k ∧ ∀ p ∈ s.sends, p.write.event ≠ x := by
  have hof : ∀ {ws acks}, Candidates s ws acks → ∀ k ∈ acks,
      ∃ x, s.f.Known x ∧ x.ackKey = some k ∧ ∀ p ∈ s.sends, p.write.event ≠ x := by
    intro ws acks hc k hk
    obtain ⟨x, hxk, hxe, hx⟩ := hc.clear k hk
    exact ⟨x, hxk, hxe, hx.unsent⟩
  intro k hk
  rcases List.mem_append.mp hk with hk | hk
  · obtain ⟨b, hb, hk⟩ := List.mem_flatMap.mp hk
    have hr : Ready s (.bind b) := h.waiting _ (State.mem_waitingBinds.mp hb)
    exact hof hr k hk
  · split at hk
    next b w hh => exact hof (h.flushing _ _ hh : Ready s (.bind b)) k hk
    next b rest w hh => exact hof (h.resending b rest w hh).1 k hk
    next => cases hk

theorem Ordered.not_candidate (h : Ordered s) (hs : Sound cfg s) {p : Sending}
    (hp : p ∈ s.sends) : ∀ k ∈ s.candidates, p.write.event.ackKey ≠ some k := by
  intro k hk hpk
  obtain ⟨x, hxk, hxe, hx⟩ := h.candidate k hk
  exact hx p hp (hs.census.eq_of_ackKey ⟨_, hs.known p hp⟩ hxk hpk hxe).symm

/-- The event of a direct send that failed goes behind the others. -/
theorem Ordered.rebuffer (h : Ordered s) (cfg : Settings) (buffered : Bool)
    (hok : buffered = true → (∀ x ∈ s.f.eventBuffer, ¬ Precedes e x) ∧
      s.NotOvertaken e s.f.openWs)
    (hfresh : ∀ v ∈ s.live, v.event ≠ e) (hcand : ∀ k ∈ s.candidates, e.ackKey ≠ some k) :
    Ordered { s with f := s.f.rebuffer cfg e buffered } := by
  have hsteady := s.f.unclaim_steady e
  have hstill := Still.of_steady hsteady
  unfold Forwarder.rebuffer
  split
  next hb =>
    obtain ⟨hahead, hover⟩ := hok hb.1
    refine (h.steady hsteady).bufferEvent cfg
      (fun x hx => hahead x (hsteady.eventBuffer.subset hx)) (fun c hc v hv hvc => ?_)
      (fun v hv => hfresh v (hstill.live.subset hv)) hcand
    exact hover c (hsteady.openWs c hc) v (hstill.live.subset hv) hvc
  next => exact h.steady hsteady

theorem Ordered.drainIfRebound (h : Ordered s) (hs : Sound cfg s) (he : s.f.Known e)
    (hsent : ∀ p ∈ s.sends, p.write.event ≠ e) (ws : Ws) : Ordered (s.drainIfRebound e ws) := by
  unfold State.drainIfRebound
  split
  next => exact h.steady (s.f.clearInFlight_steady e)
  next =>
    have hq := s.f.cancelledWriteWs_quiet none
    exact (h.steady (s.f.cancelledWriteWs_steady none)).acquire (hs.forwarder hq rfl)
      (o := .drain e) ⟨he, hsent⟩ trivial nofun

theorem Ordered.sent (h : Ordered s) (hs : Sound cfg s) {i : Nat} {p : Sending}
    (hp : s.sends[i]? = some p) (hno : outcome ≠ .deadline)
    (hok : outcome = .ok ∨ (p.buffered = true →
      (∀ x ∈ s.f.eventBuffer, ¬ Precedes p.write.event x) ∧
        s.NotOvertaken p.write.event (s.stays p.write outcome))) :
    Ordered ({ s with sends := s.sends.eraseIdx i }.settleSend cfg p outcome) := by
  have hmem : p ∈ s.sends := List.mem_of_getElem? hp
  have hperm := State.live_unsend hp
  have hgone := h.not_live hperm
  obtain ⟨hun, hloose⟩ := hs.unsend hp
  have herase : s.sends.eraseIdx i ⊆ s.sends := List.eraseIdx_subset
  -- The state in which the write is over, but the event is still in hand.
  have hover : outcome ≠ .ok → ∀ f', (s.f.endWrite p.write outcome).Steady f' →
      Ordered { s with
        sends := s.sends.eraseIdx i
        f := f'.rebuffer cfg p.write.event p.buffered } := by
    intro hout f' hf
    have hsteady := (s.f.endWrite_steady p.write hout).trans hf
    have hlive : ({ s with sends := s.sends.eraseIdx i, f := f' } : State).live =
        ({ s with sends := s.sends.eraseIdx i } : State).live := by
      rw [State.live_eq, State.live_eq]
      show f'.written ++ _ = _
      rw [hsteady.written]
      rfl
    have hstill : Still s { s with sends := s.sends.eraseIdx i, f := f' } :=
      { called := hsteady.called ▸ fun _ => id, eventBuffer := hsteady.eventBuffer
        bound := hsteady.bound, writes := hsteady.writes, openWs := hsteady.openWs, ws := hsteady.ws
        live := hlive ▸ (List.sublist_cons_self _ _).subperm.trans hperm.subperm
        sends := herase }
    refine (h.still hstill rfl (List.Sublist.refl _)).rebuffer cfg p.buffered (fun hb => ?_)
      (fun v hv hve => ?_) (h.not_candidate hs hmem)
    · obtain ⟨hahead, hnot⟩ := hok.resolve_left hout hb
      refine ⟨fun x hx => hahead x (hsteady.eventBuffer.subset hx), fun c hc v hv hvc => ?_⟩
      exact hnot c (Forwarder.endWrite_stays hno (hf.openWs c hc)) v (hstill.live.subset hv) hvc
    · have hvp := h.sole p hmem v (hstill.live.subset hv) hve
      rw [hlive, hvp] at hv
      exact hgone hv
  have hcleared := (s.f.endWrite p.write outcome).clearInFlight_steady p.write.event
  unfold State.settleSend
  cases outcome with
  | ok =>
    have hstill : Still s { s with sends := s.sends.eraseIdx i, f := s.f.endWrite p.write .ok } :=
      { called := fun _ => id, eventBuffer := List.Sublist.refl _, bound := rfl, writes := rfl
        openWs := fun _ => id, ws := fun _ => id, live := hperm.subperm, sends := herase }
    exact (h.still hstill rfl (List.Sublist.refl _)).steady hcleared
  | cancelled =>
    exact (hover (by nofun) _ (.refl _)).steady (Forwarder.clearInFlight_steady _ _)
  | deadline => exact absurd rfl hno
  | failed | timedOut =>
    have hord := hover (by nofun) _ hcleared
    have hsound := hun.sendFailed hloose (hs.known p hmem)
    have hknown : ∀ out, (((s.f.endWrite p.write out).clearInFlight p.write.event).rebuffer cfg
        p.write.event p.buffered).Known p.write.event := by
      intro out
      refine ⟨p.buffered, ?_⟩
      rw [Forwarder.rebuffer_called, (Forwarder.clearInFlight_steady _ _).called,
        (Forwarder.endWrite_quiet s.f p.write out).called]
      exact hs.known p hmem
    dsimp only
    split
    next => exact hord.drainIfRebound (hsound _) (hknown _) hloose.unsent _
    next => exact hord.steady (Forwarder.clearInFlight_steady _ _)

/-! ## Every step -/

theorem Still.withCall (s : State) (e : Event) (buffered : Bool) :
    Still s (s.withCall e buffered) where
  called := fun _ hx => List.mem_cons_of_mem _ hx
  eventBuffer := List.Sublist.refl _
  bound := rfl
  writes := rfl
  openWs := fun _ => id
  ws := fun _ => id
  live := List.Subperm.refl _
  sends := fun _ => id

theorem Ordered.send (h : Ordered s) (hs : Sound cfg s) (he : Fresh s e) {buffered : Bool}
    (hok : ∀ c ∈ s.f.openWs, ∀ x ∈ s.f.eventBuffer, Precedes x e → s.FlushOn x c) :
    Ordered (s.send cfg e buffered) := by
  have hcall := h.still (Still.withCall s e buffered) rfl (List.Sublist.refl _)
  unfold State.send
  dsimp only
  split
  next hnone =>
    split
    next =>
      refine hcall.bufferEvent cfg (fun x hx hp => ?_) (fun c hc => ?_) (fun v hv hve => ?_)
        fun k hk hek => ?_
      · -- The newest event precedes none.
        obtain ⟨bf, hk⟩ := hs.census.buffer x hx
        have hlt := hs.census.numbered _ hk
        have hcall : e.call < x.call := hp.2.2.2.2
        rw [he.number] at hcall
        exact Nat.not_lt_of_lt hcall hlt
      · have hnone' : s.f.openWs = none := hnone
        have hc' : s.f.openWs = some c := hc
        rw [hnone'] at hc'
        cases hc'
      · exact he.unknown hs.census (hve ▸ (h.lines.numbered v hv).2.1)
      · obtain ⟨x, ⟨bf, hx⟩, hxk, -⟩ := h.candidate k hk
        exact he.keyed _ hx (by simp [hxk]) (hxk.trans hek.symm)
    next => exact hcall
  next c hc => exact h.withSend hs he buffered hc (hok c hc)

/-- A new connection has seen nothing. -/
theorem Ordered.rebind (h : Ordered s) (hfresh : ws ∉ s.f.bound) (hb : s.binds = []) :
    Ordered { s with f := { s.f with ws := some ws, bound := ws :: s.f.bound } } := by
  have hnone : ∀ b, b ∉ s.binds := by simp [hb]
  have hready : ∀ o, (∀ b, o = .bind b → b ∈ s.binds) → Ready
      { s with f := { s.f with ws := some ws, bound := ws :: s.f.bound } } o := by
    intro o hin
    cases o with
    | drain e => trivial
    | bind b => exact absurd (hin b rfl) (hnone b)
  refine
    { lines := h.lines.subperm (List.Subperm.refl _) (fun _ => id) (List.subset_cons_self _ _)
        (Nat.le_refl _)
      bound := ?_, sole := h.sole, buffer := h.buffer, behind := ?_, unwritten := h.unwritten
      waiting := fun o ho => hready o fun b hob => State.mem_binds_waiting (hob ▸ ho)
      flushing := fun o w ho => hready o fun b hob => State.mem_binds_flushing (hob ▸ ho)
      resending := fun b rest w ho => absurd (State.mem_binds_resending ho) (hnone b)
      solo := h.solo }
  · rintro c hc
    cases hc
    exact List.mem_cons_self
  · intro x hx c hc v hv hvc hp
    have hcw : some ws = some c := (Forwarder.openWs_some hc).1
    cases hcw
    exact absurd (hvc ▸ (h.lines.numbered v hv).2.2) hfresh

theorem Forwarder.Census.nodup_keys {f : Forwarder} (h : f.Census) :
    (f.pendingAcks.filterMap (·.ackKey)).Nodup := by
  refine List.pairwise_filterMap.mpr (h.nodup.imp_of_mem fun {x y} hx hy hne k hk k' hk' hkk => ?_)
  subst hkk
  exact hne (h.eq_of_ackKey (h.pending y hy).1 (h.pending x hx).1 hk' hk)

/-- What is pending and not marked in flight is in no one's hands. -/
theorem Sound.candidates (hs : Sound cfg s) (h : Ordered s) (hfresh : ws ∉ s.f.bound)
    (hok : ∀ w ∈ s.parked, w.event ∈ s.f.pendingAcks → w.event ∈ s.f.inFlightAcks) :
    Candidates s ws s.pendingBeforeBind := by
  refine ⟨hs.census.nodup_keys.filter _, fun k hk => ?_⟩
  obtain ⟨hk, hmark⟩ := List.mem_filter.mp hk
  obtain ⟨e, he, hek⟩ := List.mem_filterMap.mp hk
  rw [Option.isNone_iff_eq_none] at hmark
  have hidle : ∀ w ∈ s.parked, w.event ≠ e := by
    rintro w hw rfl
    exact lookup_none.mp hmark _ (hok w hw he) hek
  refine ⟨e, (hs.census.pending e he).1, hek, fun hin => ?_, fun p hp => ?_, fun w hw _ hws => ?_⟩
  · obtain ⟨o, w, hh, hwe⟩ := hs.once e hin he
    refine hidle w (List.mem_append_right _ ?_) hwe
    simp [State.holderWrite, hh]
  · exact hidle _ (List.mem_append_left _ (List.mem_map_of_mem hp))
  · exact hfresh (hws ▸ (h.lines.numbered w hw).2.2)

theorem Ordered.bind (h : Ordered s) (hs : Sound cfg s) (hfresh : ws ∉ s.f.bound)
    (hb : s.binds = [])
    (hok : ∀ w ∈ s.parked, w.event ∈ s.f.pendingAcks → w.event ∈ s.f.inFlightAcks) :
    Ordered (s.bind ws) := by
  have hcand := hs.candidates h hfresh hok
  refine (h.rebind hfresh hb).acquire (hs.rebind hb (some ws) (ws :: s.f.bound)) (hs.bindFit ws)
    ?_ fun _ _ => hb
  exact hcand.mono (fun _ => id) fun _ _ _ _ _ hc => { hc with }

theorem Ordered.leave (h : Ordered s) {i : Nat} (hs : s.leave i o outcome = some s') :
    Ordered s' := by
  have hstill : Still s { s with waiters := s.waiters.eraseIdx i } :=
    { Still.of_steady (.refl s.f) with }
  have hgone := h.still hstill rfl (List.eraseIdx_sublist _ _)
  unfold State.leave at hs
  split at hs
  next =>
    cases hs
    cases o with
    | drain e => exact hgone.steady (s.f.clearInFlight_steady e)
    | bind b => exact hgone
  next e =>
    cases hs
    exact (hgone.steady s.f.rebindDeadline_steady).steady (Forwarder.clearInFlight_steady _ e)
  next => cases hs

/-- **The step lemma.** -/
theorem Ordered.step (h : Ordered s) (hs : Sound cfg s) {a : Step} (ha : Assumed s a)
    (hok : Orderly s a) (hstep : s.step cfg a = some s') : Ordered s' := by
  cases a with
  | send event buffered token =>
    cases hstep
    exact h.send hs ha.fresh hok
  | bind ws =>
    cases hstep
    exact h.bind hs ha.1 ha.2 hok
  | unbind =>
    cases hstep
    refine h.steady { Forwarder.Steady.refl s.f with openWs := nofun, ws := nofun }
  | acknowledge k =>
    cases hstep
    exact h.steady (s.f.acknowledge_steady k)
  | closing ws =>
    cases hstep
    refine h.steady { Forwarder.Steady.refl s.f with openWs := fun c hc => ?_ }
    exact Forwarder.openWs_shrinks (List.subset_cons_self _ _) (fun _ => id) c hc
  | ended ws =>
    cases hstep
    refine h.steady { Forwarder.Steady.refl s.f with openWs := fun c hc => ?_ }
    exact Forwarder.openWs_shrinks (fun _ => id) (List.subset_cons_self _ _) c hc
  | sent i outcome =>
    simp only [State.step] at hstep
    split at hstep
    next => cases hstep
    next hno =>
      obtain ⟨p, hp, rfl⟩ := Option.map_eq_some_iff.mp hstep
      exact h.sent hs hp hno (hok.imp_right fun hp' => hp' p hp)
  | recovered outcome =>
    obtain ⟨r, hr, hstep⟩ := Option.bind_eq_some_iff.mp hstep
    unfold State.recover at hstep
    split at hstep
    next => cases hstep
    next => cases hstep
    next o w _ =>
      cases hstep
      exact h.settleFlush hs hr (hok.imp_right fun hw => hw w (by simp [State.holderWrite, hr]))
    next =>
      cases hstep
      exact h.settleResend hs hr outcome
  | grant =>
    simp only [State.step] at hstep
    split at hstep
    next o waiters hfree hw =>
      cases hstep
      have hr := h.waiting o (by simp [hw])
      have hstill : Still s { s with waiters } :=
        { Still.of_steady (.refl s.f) with }
      have hsub : waiters.Sublist s.waiters := by
        rw [hw]
        exact List.sublist_cons_self _ _
      obtain ⟨hsound, hfit⟩ := hs.granted hw
      refine (h.still hstill rfl hsub).flushBuffer hsound hfree hfit (hstill.ready hr) ?_
      rintro b rfl
      have hsolo := h.solo
      rw [State.binds_of_free hfree, State.waitingBinds, hw] at hsolo
      have hfree' : ({ s with waiters } : State).holder = none := hfree
      rw [State.binds_of_free hfree']
      simpa [Owner.bind?, State.waitingBinds] using hsolo
    next => cases hstep
  | leave i outcome =>
    obtain ⟨o, ho, hstep⟩ := Option.bind_eq_some_iff.mp hstep
    exact h.leave hstep

theorem Ordered.initial : Ordered {} where
  lines :=
    { numbered := fun _ h => absurd h List.not_mem_nil
      distinct := List.nodup_nil
      order := fun _ h => absurd h List.not_mem_nil
      single := fun _ h => absurd h List.not_mem_nil }
  bound := fun _ h => absurd h (Option.some_ne_none _).symm
  sole := fun _ h => absurd h List.not_mem_nil
  buffer := List.Pairwise.nil
  behind := fun _ h => absurd h List.not_mem_nil
  unwritten := fun _ h => absurd h List.not_mem_nil
  waiting := fun _ h => absurd h List.not_mem_nil
  flushing := fun _ _ h => absurd h (Option.some_ne_none _).symm
  resending := fun _ _ _ h => absurd h (Option.some_ne_none _).symm
  solo := Nat.zero_le 1

/-! ## Events arrive in order and once -/

/-- A step within the forwarder's promises that keeps the order. -/
def InTurn (s : State) (a : Step) : Prop := Assumed s a ∧ Orderly s a

/-- **Events arrive in order and once**, in every run that overtakes no event. -/
theorem events_in_order (h : (forwarder cfg).Reachable InTurn {} s) : InOrder s := by
  have hboth := h.inv (fun s => Sound cfg s ∧ Ordered s) ⟨Sound.initial cfg, Ordered.initial⟩
    fun s a t hs ha hstep => ⟨hs.1.step ha.1 hstep, hs.2.step hs.1 ha.1 ha.2 hstep⟩
  exact hboth.2.inOrder

instance (s : State) (e : Event) (ws : Ws) : Decidable (s.FlushOn e ws) :=
  inferInstanceAs (Decidable (∃ w ∈ s.holderWrite, _))

instance (s : State) (e : Event) (ws : Option Ws) : Decidable (s.NotOvertaken e ws) :=
  inferInstanceAs (Decidable (∀ c ∈ ws, ∀ w ∈ s.live, w.ws = c → ¬ Precedes e w.event))

instance (s : State) : ∀ a, Decidable (Orderly s a)
  | .send event _ token =>
    inferInstanceAs (Decidable (∀ c ∈ s.f.openWs, ∀ e ∈ s.f.eventBuffer,
      Precedes e (s.nextEvent event token) → s.FlushOn e c))
  | .sent i outcome =>
    inferInstanceAs (Decidable (outcome = .ok ∨ ∀ p ∈ s.sends[i]?, p.buffered = true →
      (∀ e ∈ s.f.eventBuffer, ¬ Precedes p.write.event e) ∧
        s.NotOvertaken p.write.event (s.stays p.write outcome)))
  | .recovered outcome =>
    inferInstanceAs (Decidable (outcome = .ok ∨ ∀ w ∈ s.holderWrite,
      w.event ∈ s.f.eventBuffer → s.NotOvertaken w.event (s.stays w outcome)))
  | .bind _ =>
    inferInstanceAs (Decidable (∀ w ∈ s.parked,
      w.event ∈ s.f.pendingAcks → w.event ∈ s.f.inFlightAcks))
  | .unbind | .acknowledge _ | .closing _ | .ended _ | .grant | .leave _ _ =>
    inferInstanceAs (Decidable True)

instance (s : State) (a : Step) : Decidable (InTurn s a) :=
  inferInstanceAs (Decidable (_ ∧ _))

/-- An event that carries the text so far. -/
def tokenEvent : SandboxEvent := { type := .other "token", messageId := some "m1" }

theorem events_in_order_backlog :
    ∃ s, (forwarder smallBuffer).run InTurn {}
        [.send tokenEvent true "", .bind 1, .send tokenEvent true "", .recovered .ok,
          .sent 0 .ok] = some s ∧
      s.f.written.map (fun w => (w.event.call, w.seq)) = [(1, 1), (0, 0)] ∧ InOrder s := by
  have hrun : ((forwarder smallBuffer).run InTurn {}
      [.send tokenEvent true "", .bind 1, .send tokenEvent true "", .recovered .ok,
        .sent 0 .ok]).map (fun s => s.f.written.map fun w => (w.event.call, w.seq)) =
      some [(1, 1), (0, 0)] := by decide +kernel
  obtain ⟨s, hs, hw⟩ := Option.map_eq_some_iff.mp hrun
  exact ⟨s, hs, hw, events_in_order (System.run_reachable hs)⟩

/-- A direct send on a fresh connection passes the second event of the backlog. -/
def overtaking : List Step :=
  [.send tokenEvent true "", .send tokenEvent true "", .bind 1, .send tokenEvent true "",
    .recovered .ok, .sent 0 .ok, .recovered .ok]

/-- The send of a critical event is cancelled while a drain has its recovery write under
way: the mark is cleared, the next bind counts the event as its own, and the drain gives
it back to the buffer. -/
def resentTwice : List Step :=
  [.bind 1, .send tokenEvent true "", .send executionComplete true "", .unbind, .bind 2,
    .sent 0 .failed, .sent 0 .failed, .recovered .ok, .leave 0 .cancelled, .unbind, .bind 3,
    .recovered .failed, .grant, .recovered .ok, .recovered .ok]

theorem overtaken_and_resent :
    (∃ s, (forwarder smallBuffer).run Assumed {} overtaking = some s ∧
      ∃ v ∈ s.f.written, ∃ w ∈ s.f.written, v.ws = w.ws ∧ Precedes v.event w.event ∧
        w.seq < v.seq) ∧
    ∃ s, (forwarder smallBuffer).run Assumed {} resentTwice = some s ∧
      ∃ v ∈ s.f.written, ∃ w ∈ s.f.written, v.event = w.event ∧ v.ws = w.ws ∧ v.seq < w.seq := by
  constructor
  · refine ⟨((forwarder smallBuffer).run Assumed {} overtaking).getD {}, ?_, ?_⟩ <;>
      decide +kernel
  · refine ⟨((forwarder smallBuffer).run Assumed {} resentTwice).getD {}, ?_, ?_⟩ <;>
      decide +kernel

end BackgroundAgents.Sandbox

import BackgroundAgents.Sandbox.ToolCallCuts
import BackgroundAgents.Sandbox.HeldEvents

/-!
# The size gate

`BufferedEventForwarder.send` lets an event pass only when its JSON is within the
limit, as it is or cut. `sizedForwarder` is the forwarder with this gate before it: a
call of `send` names the JSON that it was called with, and the JSON of an event that
was let in is noted under the number of its call.
-/

namespace BackgroundAgents.Sandbox.EventSize

open Json (textSize)
open Transition

/-! ## The diagnostic of a critical event -/

/-- The event with another diagnostic. -/
def withError (event : Event) (error : Text) : Event := Dict.set event (asText "error") (.str error)

theorem size_withError {event : Event} (hkeys : (event.map Prod.fst).Nodup) {error : Text}
    (herror : Dict.get? event (asText "error") = some (.str error)) (text : Text) :
    eventSizeBytes (withError event text) + textSize error =
      eventSizeBytes event + textSize text := by
  have hset := Json.size_set Json.spaced (.str text) hkeys herror
  rw [Json.size_str, Json.size_str] at hset
  exact hset

/-- The longest prefix of the diagnostic that fits is kept, and the event is refused when it
does not fit without any. -/
theorem truncateCriticalError_spec {event : Event} (hkeys : (event.map Prod.fst).Nodup)
    {error : Text} (herror : Dict.get? event (asText "error") = some (.str error)) :
    (∃ text, truncateCriticalError event (eventSizeBytes event) = some (withError event text) ∧
      eventSizeBytes (withError event text) ≤ MAX_EVENT_BYTES ∧ text <+: error ∧
      ∀ p, p <+: error → eventSizeBytes (withError event p) ≤ MAX_EVENT_BYTES → p <+: text) ∨
    (truncateCriticalError event (eventSizeBytes event) = none ∧
      ∀ p, MAX_EVENT_BYTES < eventSizeBytes (withError event p)) := by
  have hsize := size_withError hkeys herror
  unfold truncateCriticalError
  rw [herror]
  dsimp only
  by_cases hroom : (MAX_EVENT_BYTES : Int) - eventSizeBytes event + textSize error < 2
  · rw [if_pos hroom]
    refine .inr ⟨rfl, ?_⟩
    intro p
    have hp := hsize p
    have htwo := Json.two_le_textSize p
    omega
  · rw [if_neg hroom]
    obtain ⟨hfits, hlongest⟩ := fitJsonString_spec error (Int.not_lt.mp hroom)
    have hbound : eventSizeBytes (withError event (fitJsonString error
        ((MAX_EVENT_BYTES : Int) - eventSizeBytes event + textSize error))) ≤
          MAX_EVENT_BYTES := by
      have hcut := hsize (fitJsonString error
        ((MAX_EVENT_BYTES : Int) - eventSizeBytes event + textSize error))
      omega
    rw [show Dict.set event (asText "error") (.str (fitJsonString error
      ((MAX_EVENT_BYTES : Int) - eventSizeBytes event + textSize error))) = withError event _
        from rfl, if_pos hbound]
    refine .inl ⟨_, rfl, hbound, fitJsonString_initial _ _, ?_⟩
    intro p hp hle
    refine hlongest p hp ?_
    have hcut := hsize p
    omega

theorem truncateCriticalError_none {event : Event} (originalBytes : Int)
    (herror : ∀ error, Dict.get? event (asText "error") ≠ some (.str error)) :
    truncateCriticalError event originalBytes = none := by
  unfold truncateCriticalError
  split
  next error h => exact absurd h (herror error)
  next => rfl

/-! ## The gate -/

/-- `event.get("type", "unknown")` is this text. -/
def isType (event : Event) (type : String) : Bool :=
  match (Dict.get? event (asText "type")).getD (.str (asText "unknown")) with
  | .str text => text = asText type
  | _ => false

def isCritical (event : Event) : Bool := criticalEventTypes.any fun type => isType event type.text

/-- What `send` writes into an event: the sandbox, the time and, if it is critical, the ackId
that `_make_ack_id` returns. -/
def prepared (event : Event) (sandboxId : Text) (now : Json) (ackId : Text) : Event :=
  let event := Dict.set event (asText "sandboxId") (.str sandboxId)
  let event := Dict.set event (asText "timestamp")
    ((Dict.get? event (asText "timestamp")).getD now)
  if isCritical event && (Dict.get? event (asText "ackId")).isNone then
    Dict.set event (asText "ackId") (.str ackId)
  else event

/-- The event that `send` goes on with; `none` where it returns or raises before. -/
def gate (lower : Text → Text) (event : Event) : Option Event :=
  if eventSizeBytes event ≤ MAX_EVENT_BYTES then some event
  else if isType event "tool_call" then (truncateToolCall lower event).toOption
  else if isCritical event then truncateCriticalError event (eventSizeBytes event)
  else none

theorem truncateToolCall_le {lower : Text → Text} {event result : Event}
    (h : truncateToolCall lower event = .ok result) : eventSizeBytes result ≤ MAX_EVENT_BYTES := by
  unfold truncateToolCall at h
  dsimp only at h
  split at h
  next hsize =>
    obtain rfl : event = result := Except.ok.inj h
    exact hsize
  next =>
    split at h
    next => cases h
    next =>
      split at h
      next => cases h
      next hsize =>
        rw [← Except.ok.inj h]
        exact Nat.not_lt.mp hsize

theorem truncateCriticalError_le {event result : Event} {originalBytes : Int}
    (h : truncateCriticalError event originalBytes = some result) :
    eventSizeBytes result ≤ MAX_EVENT_BYTES := by
  unfold truncateCriticalError at h
  split at h
  next =>
    dsimp only at h
    split at h
    next => cases h
    next =>
      split at h
      next hsize =>
        rw [← Option.some.inj h]
        exact hsize
      next => cases h
  next => cases h

theorem gate_le {lower : Text → Text} {event bounded : Event} (h : gate lower event = some bounded) :
    eventSizeBytes bounded ≤ MAX_EVENT_BYTES := by
  unfold gate at h
  split at h
  next hsize =>
    rw [← Option.some.inj h]
    exact hsize
  next =>
    split at h
    next =>
      cases hcut : truncateToolCall lower event with
      | error e =>
        rw [hcut] at h
        cases h
      | ok result =>
        rw [hcut] at h
        rw [← Option.some.inj h]
        exact truncateToolCall_le hcut
    next =>
      split at h
      next => exact truncateCriticalError_le h
      next => cases h

/-! ## The forwarder behind the gate -/

structure SizedState where
  base : State := {}
  /-- The JSON of each event that was let in, by the number of its call. -/
  contents : List Event := []

inductive SizedStep where
  | send (event : Event) (now : Json) (ackId : Text) (buffered : Bool) (token : String)
  | other (step : Step)

/-- What the forwarder is told of an event. -/
structure Reader where
  sandboxId : Text
  lower : Text → Text
  read : Event → SandboxEvent

def isSend : Step → Bool
  | .send _ _ _ => true
  | _ => false

def SizedState.step (cfg : Settings) (reader : Reader) (s : SizedState) :
    SizedStep → Option SizedState
  | .send event now ackId buffered token =>
    match gate reader.lower (prepared event reader.sandboxId now ackId) with
    | none => some s
    | some bounded =>
      (s.base.step cfg (.send (reader.read bounded) buffered token)).map fun base =>
        { base, contents := s.contents ++ [bounded] }
  | .other step =>
    if isSend step then none else (s.base.step cfg step).map fun base => { s with base }

def sizedForwarder (cfg : Settings) (reader : Reader) : System SizedState SizedStep :=
  ⟨SizedState.step cfg reader⟩

/-- The JSON of the event is within the limit. -/
def SizedState.Fits (s : SizedState) (e : Sandbox.Event) : Prop :=
  ∃ json, s.contents[e.call]? = some json ∧ eventSizeBytes json ≤ MAX_EVENT_BYTES

/-- Everything that is buffered, pending or in flight, or was or is being written, is within
the limit. -/
structure Sized (s : SizedState) : Prop where
  numbered : s.base.f.called.length = s.contents.length
  carries : s.base.Carries s.Fits s.base.f.called

variable {cfg : Settings} {reader : Reader} {s : SizedState}

theorem SizedState.Fits.append {e : Sandbox.Event} (h : s.Fits e) (base : State) (json : Event) :
    ({ base, contents := s.contents ++ [json] } : SizedState).Fits e := by
  obtain ⟨old, hget, hsize⟩ := h
  refine ⟨old, ?_, hsize⟩
  show (s.contents ++ [json])[e.call]? = some old
  rw [List.getElem?_append_left (List.getElem?_eq_some_iff.mp hget).1, hget]

theorem Sized.step {s' : SizedState} {a : SizedStep} (h : Sized s)
    (hstep : s.step cfg reader a = some s') : Sized s' := by
  cases a with
  | send event now ackId buffered token =>
    unfold SizedState.step at hstep
    dsimp only at hstep
    cases hgate : gate reader.lower (prepared event reader.sandboxId now ackId) with
    | none =>
      rw [hgate] at hstep
      rw [← Option.some.inj hstep]
      exact h
    | some bounded =>
      rw [hgate] at hstep
      rw [← Option.some.inj hstep]
      have hnew : ({ s with contents := s.contents ++ [bounded] } : SizedState).Fits
          (s.base.nextEvent (reader.read bounded) token) := by
        refine ⟨bounded, ?_, gate_le hgate⟩
        show (s.contents ++ [bounded])[s.base.f.called.length]? = some bounded
        rw [h.numbered, List.getElem?_concat_length]
      have hcarries := (h.carries.mono fun e he => he.append s.base bounded).send cfg
        hnew buffered
      have hcalled := hcarries.f.called
      exact
        { numbered := by
            show (State.send cfg s.base _ buffered).f.called.length = (s.contents ++ [bounded]).length
            rw [hcalled, List.length_cons, List.length_append, List.length_singleton, h.numbered]
          carries := by
            rw [← hcalled] at hcarries
            exact hcarries }
  | other step =>
    unfold SizedState.step at hstep
    dsimp only at hstep
    split at hstep
    next => cases hstep
    next hother =>
      obtain ⟨base, hbase, rfl⟩ := Option.map_eq_some_iff.mp hstep
      have hnotSend : ∀ event buffered token, step ≠ .send event buffered token := by
        intro event buffered token he
        rw [he] at hother
        exact hother rfl
      have hcarries := h.carries.step hnotSend hbase
      have hcalled := hcarries.f.called
      exact
        { numbered := by
            show base.f.called.length = s.contents.length
            rw [hcalled, h.numbered]
          carries := by
            rw [← hcalled] at hcarries
            exact hcarries }

/-- The forwarder never holds an event that is too large. -/
theorem sized_of_reachable (h : (sizedForwarder cfg reader).Reachable anyStep {} s) : Sized s := by
  refine h.inv Sized ?_ fun s a s' hs _ hstep => hs.step hstep
  have hnone : ∀ {α : Type} {p : α → Prop} (a : α), a ∈ ([] : List α) → p a :=
    fun a ha => absurd ha List.not_mem_nil
  exact ⟨rfl, ⟨rfl, hnone, hnone, hnone, hnone⟩, hnone, fun w hw => by cases hw⟩

end BackgroundAgents.Sandbox.EventSize

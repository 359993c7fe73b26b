import Mathlib.Algebra.Ring.Nat
import Mathlib.Data.Rat.Defs
import Mathlib.Algebra.Order.Ring.Unbundled.Rat
import Mathlib.Algebra.BigOperators.Group.List.Basic
import BackgroundAgents.Lib.Dictionaries

/-!
# The text of a Codex turn

`CodexTurnEvents` accumulates the assistant text of one turn, item by item, under a
display limit for the whole turn, and emits it as tokens: at most one in a tenth of a
second while text streams in, and at once when a message is completed, when the context
is compacted and when the turn is over.
-/

namespace BackgroundAgents.Harness.Codex

/-- A text, as its code points. -/
abbrev Text := List Nat

def asText (s : String) : Text := s.toList.map Char.toNat

def MAX_ASSISTANT_TEXT_CHARS : Nat := 64 * 1024

def TEXT_UPDATE_INTERVAL_SECONDS : ℚ := 1 / 10

def TEXT_TRUNCATION_NOTICE : Text :=
  asText "\n\n[Response exceeds the display limit; remaining text omitted.]"

/-- The frames of the turn that bear on its text. -/
inductive Frame where
  | agentMessageDelta (itemId delta : Text)
  | agentMessageCompleted (itemId text : Text)
  | contextCompactionStarted
  | contextCompactionCompleted
  /-- With the message of a failure. -/
  | turnCompleted (status : Text) (failure : Option Text)
  deriving DecidableEq, Repr

inductive Event where
  | token (content : Text)
  | contextCompacted
  | error (message : Text)
  deriving DecidableEq, Repr

structure CodexTurnEvents where
  text : List (Text × List Text) := []
  textLength : Int := 0
  textTruncated : Bool := false
  textDirty : Bool := false
  lastTextAt : Option ℚ := none
  lastText : Text := []
  status : Option Text := none
  error : Option Text := none
  deriving DecidableEq

namespace CodexTurnEvents

variable (s : CodexTurnEvents)

/-- The characters that a replacement gives back. -/
def previousLength (itemId : Text) (replace : Bool) : Nat :=
  if replace then (((Dict.get? s.text itemId).getD []).map List.length).sum else 0

def separatorLength (itemId : Text) : Nat :=
  if s.text ≠ [] ∧ Dict.get? s.text itemId = none then 2 else 0

def remaining (itemId : Text) (replace : Bool) : Nat :=
  ((MAX_ASSISTANT_TEXT_CHARS : Int) - s.textLength + s.previousLength itemId replace -
    s.separatorLength itemId).toNat

def recordText (itemId text : Text) (replace : Bool) : CodexTurnEvents :=
  let marked :=
    if s.remaining itemId replace < text.length ∧ s.textTruncated = false then
      { s with textTruncated := true, textDirty := true }
    else s
  let retained := text.take (s.remaining itemId replace)
  let parts := Dict.get? s.text itemId
  if retained = [] ∧ (replace = false ∨ parts = none) then marked
  else
    let kept := if replace then [] else parts.getD []
    { marked with
      text := Dict.set s.text itemId (if retained = [] then kept else kept ++ [retained])
      textLength :=
        s.textLength + s.separatorLength itemId - s.previousLength itemId replace + retained.length
      textDirty := true }

/-- The text of the segment, without the notice. -/
def joined : Text := List.intercalate (asText "\n\n") (s.text.map fun e => e.2.flatten)

def shown : Text := if s.textTruncated then s.joined ++ TEXT_TRUNCATION_NOTICE else s.joined

/-- Whether the last token is too recent for another one. -/
def throttled (now : ℚ) : Bool :=
  s.lastTextAt.any fun last => now - last < TEXT_UPDATE_INTERVAL_SECONDS

def textEvent (force : Bool) (now : ℚ) : List Event × CodexTurnEvents :=
  if s.textDirty = false then ([], s)
  else if force = false ∧ s.throttled now then ([], s)
  else
    let clean := { s with textDirty := false }
    if s.shown = s.lastText then ([], clean)
    else ([.token s.shown], { clean with lastTextAt := some now, lastText := s.shown })

/-- `_failed` -/
def failed (message : Text) : List Event × CodexTurnEvents :=
  if s.error.isSome then ([], s) else ([.error message], { s with error := some message })

def accept (frame : Frame) (now : ℚ) : List Event × CodexTurnEvents :=
  match frame with
  | .agentMessageDelta itemId delta => (s.recordText itemId delta false).textEvent false now
  | .agentMessageCompleted itemId text => (s.recordText itemId text true).textEvent true now
  | .contextCompactionStarted => ([], s)
  | .contextCompactionCompleted =>
    let (events, s) := s.textEvent true now
    (events ++ [.contextCompacted], { s with text := [], lastText := [] })
  | .turnCompleted status failure =>
    let (events, s) := { s with status := some status }.textEvent true now
    match failure with
    | some message =>
      let (more, s) := s.failed message
      (events ++ more, s)
    | none => (events, s)

end CodexTurnEvents

/-- What a turn has emitted after these frames, and its state. -/
def run (frames : List (Frame × ℚ)) : List Event × CodexTurnEvents :=
  frames.foldl
    (fun r f => (r.1 ++ (r.2.accept f.1 f.2).1, (r.2.accept f.1 f.2).2)) ([], {})

end BackgroundAgents.Harness.Codex

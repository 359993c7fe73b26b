import Mathlib.Algebra.Ring.Nat
import Mathlib.Data.List.Basic
import BackgroundAgents.Slack.Mrkdwn

/-!
# Fitting long agent text into Slack's blocks

`splitIntoSlackSections` splits a text at blank lines, then at lines, then anywhere. A
code fence that is open where a section ends is closed there and reopened at the top of
the next section; both repairs count towards the room of a section.
-/

namespace BackgroundAgents.Slack

/-- A text, as its UTF-16 units. -/
abbrev Text := List UInt16

def newline : UInt16 := 0x0a
def backtick : UInt16 := 0x60

def CODE_FENCE : Text := [backtick, backtick, backtick]

structure FenceState where
  isOpen : Bool
  info : Text
  deriving DecidableEq, Repr

def CLOSED_FENCE : FenceState := { isOpen := false, info := [] }

def FENCE_INFO_MAX_CHARS : Nat := 32

/-- `text.trim()` -/
def trim (text : Text) : Text :=
  ((text.dropWhile whiteSpace).reverse.dropWhile whiteSpace).reverse

def normalizeFenceInfo (raw : Text) : Text :=
  ((trim raw).takeWhile fun c => !whiteSpace c).take FENCE_INFO_MAX_CHARS

/-- The fence that opens or closes in front of the rest of a line. -/
def passFence (state : FenceState) (startsLine : Bool) (rest : Text) : FenceState :=
  if state.isOpen then CLOSED_FENCE
  else { isOpen := true, info := if startsLine then normalizeFenceInfo rest else [] }

/-- The fences of what is left of a line, with whether there was only white space before. -/
def advanceLine : Text → FenceState → Bool → FenceState
  | a :: b :: c :: rest, state, startsLine =>
    if [a, b, c] = CODE_FENCE then advanceLine rest (passFence state startsLine rest) false
    else advanceLine (b :: c :: rest) state (startsLine && whiteSpace a)
  | _, state, _ => state

def advanceFence (state : FenceState) (chunk : Text) : FenceState :=
  (chunk.splitOn newline).foldl (fun state line => advanceLine line state true) state

def reopenPrefix (state : FenceState) : Text :=
  if state.isOpen then CODE_FENCE ++ state.info ++ [newline] else []

/-- A line with a fence. -/
def closingFence : Text := newline :: CODE_FENCE

def closeSuffix (state : FenceState) : Text := if state.isOpen then closingFence else []

def isHighSurrogate (c : UInt16) : Bool := between 0xd800 0xdbff c
def isLowSurrogate (c : UInt16) : Bool := between 0xdc00 0xdfff c

/-- Whether a cut before the unit `i` falls between a high and a low surrogate. -/
def dividesPair (text : Text) (i : Nat) : Bool :=
  match i with
  | 0 => false
  | i + 1 => text[i]?.any isHighSurrogate && text[i + 1]?.any isLowSurrogate

def sliceAtCodePointBoundary (text : Text) (maxChars : Nat) : Text :=
  let limit := min maxChars text.length
  text.take (if dividesPair text limit then limit - 1 else limit)

/-! ## `SlackSectionAccumulator` -/

/-- What may be thrown. -/
inductive SectionError where
  | rangeError
  | typeError
  deriving DecidableEq, Repr

structure SlackSectionAccumulator where
  sections : List Text := []
  sectionStart : FenceState := CLOSED_FENCE
  sectionEnd : FenceState := CLOSED_FENCE
  body : Text := []
  truncated : Bool := false
  deriving DecidableEq, Repr

namespace SlackSectionAccumulator

variable (maxChars maxSections : Nat)

def render (acc : SlackSectionAccumulator) (content : Text) (fence : FenceState) : Text :=
  reopenPrefix acc.sectionStart ++ content ++ closeSuffix fence

/-- `none` when the token does not fit. -/
def tryAppend (acc : SlackSectionAccumulator) (token : Text) : Option SlackSectionAccumulator :=
  let joined := acc.body ++ token
  let joinedEnd := advanceFence acc.sectionEnd token
  if maxChars < (acc.render joined joinedEnd).length then none
  else some { acc with body := joined, sectionEnd := joinedEnd }

def flush (acc : SlackSectionAccumulator) : SlackSectionAccumulator :=
  if acc.body = [] then acc
  else
    { acc with
      sections := acc.sections ++ [acc.render acc.body acc.sectionEnd]
      sectionStart := acc.sectionEnd
      body := [] }

/-- What fits of a text into a section of its own. -/
def hardSlice (start : FenceState) (text : Text) : Text :=
  let taken := sliceAtCodePointBoundary text (maxChars - (reopenPrefix start).length)
  let suffix := closeSuffix (advanceFence start taken)
  if maxChars < (reopenPrefix start).length + taken.length + suffix.length then
    sliceAtCodePointBoundary text (maxChars - (reopenPrefix start).length - suffix.length)
  else taken

def takeHardSlice (acc : SlackSectionAccumulator) (text : Text) :
    Except SectionError (Text × SlackSectionAccumulator) :=
  let start := acc.sectionEnd
  let taken := hardSlice maxChars start text
  if sliceAtCodePointBoundary text (maxChars - (reopenPrefix start).length) = [] ∨ taken = [] then
    .error .rangeError
  else
    .ok (taken,
      { acc with sectionStart := start, body := taken, sectionEnd := advanceFence start taken })

theorem takeHardSlice_ne_nil {acc acc' : SlackSectionAccumulator} {text taken : Text}
    (h : acc.takeHardSlice maxChars text = .ok (taken, acc')) : taken ≠ [] := by
  unfold takeHardSlice at h
  dsimp only at h
  split at h
  next => cases h
  next hne =>
    obtain ⟨rfl, _⟩ := Prod.mk.inj (Except.ok.inj h)
    exact fun he => hne (.inr he)

/-- The loop over what is left of a token; `false` at the limit of sections. -/
def appendOversizedToken (rest : Text) (acc : SlackSectionAccumulator) :
    Except SectionError (Bool × SlackSectionAccumulator) :=
  if _hrest : rest = [] then .ok (true, acc)
  else
    match _h : acc.takeHardSlice maxChars rest with
    | .error e => .error e
    | .ok (taken, acc) =>
      let left := rest.drop taken.length
      if left = [] then .ok (true, acc)
      else if maxSections ≤ acc.flush.sections.length then
        .ok (false, { acc.flush with truncated := true })
      else appendOversizedToken left acc.flush
termination_by rest.length
decreasing_by
  have htaken := List.length_pos_iff.mpr (takeHardSlice_ne_nil maxChars _h)
  have hpos := List.length_pos_iff.mpr _hrest
  rw [List.length_drop]
  omega

def appendToken (token : Text) (acc : SlackSectionAccumulator) :
    Except SectionError (Bool × SlackSectionAccumulator) :=
  match acc.tryAppend maxChars token with
  | some acc => .ok (true, acc)
  | none =>
    if maxSections ≤ acc.flush.sections.length then
      .ok (false, { acc.flush with truncated := true })
    else
      match acc.flush.tryAppend maxChars token with
      | some acc => .ok (true, acc)
      | none => appendOversizedToken maxChars maxSections token acc.flush

/-- Appends tokens until one does not fit any more; an empty one is passed over. -/
def appendTokens : List Text → SlackSectionAccumulator →
    Except SectionError (Bool × SlackSectionAccumulator)
  | [], acc => .ok (true, acc)
  | token :: rest, acc =>
    if token = [] then appendTokens rest acc
    else
      match appendToken maxChars maxSections token acc with
      | .error e => .error e
      | .ok (false, acc) => .ok (false, acc)
      | .ok (true, acc) => appendTokens rest acc

/-- `sourceToken.split(/(\n)/)`, with the line so far. -/
def splitLines : Text → Text → List Text
  | [], line => [line]
  | c :: rest, line =>
    if c = newline then line :: [newline] :: splitLines rest []
    else splitLines rest (line ++ [c])

def startsWithBlankLine (token : Text) : Bool := [newline, newline].isPrefixOf token

def appendSourceToken (sourceToken : Text) (acc : SlackSectionAccumulator) :
    Except SectionError (Bool × SlackSectionAccumulator) :=
  if sourceToken = [] then .ok (true, acc)
  else if startsWithBlankLine sourceToken ∨ sourceToken.length ≤ maxChars then
    appendToken maxChars maxSections sourceToken acc
  else appendTokens maxChars maxSections (splitLines sourceToken []) acc

def appendSourceTokens : List Text → SlackSectionAccumulator →
    Except SectionError SlackSectionAccumulator
  | [], acc => .ok acc
  | sourceToken :: rest, acc =>
    match appendSourceToken maxChars maxSections sourceToken acc with
    | .error e => .error e
    | .ok (false, acc) => .ok acc
    | .ok (true, acc) => appendSourceTokens rest acc

end SlackSectionAccumulator

/-! ## `splitIntoSlackSections` -/

def truncationPointer : Text := units "\n\n_...truncated — open the session to read the rest_"

/-- `(text.match(/```/g) ?? []).length` -/
def countFences : Text → Nat
  | a :: b :: c :: rest =>
    if [a, b, c] = CODE_FENCE then countFences rest + 1 else countFences (b :: c :: rest)
  | _ => 0

def withTruncationMarker (text : Text) (maxChars : Nat) : Text :=
  if text.length + truncationPointer.length ≤ maxChars then text ++ truncationPointer
  else
    let content :=
      if closingFence.isSuffixOf text then text.take (text.length - closingFence.length) else text
    let room := maxChars - truncationPointer.length - closingFence.length
    let sliced := sliceAtCodePointBoundary content room
    let needsClose := countFences sliced % 2 ≠ 0
    sliced ++ (if needsClose then closingFence else []) ++ truncationPointer

def SlackSectionAccumulator.finish (acc : SlackSectionAccumulator) (maxChars : Nat) :
    Except SectionError (List Text) :=
  if acc.truncated then
    match acc.sections.getLast? with
    | some last => .ok (acc.sections.dropLast ++ [withTruncationMarker last maxChars])
    | none => .error .typeError
  else .ok acc.flush.sections

/-- `text.split(/(\n{2,})/)`, with the paragraph so far and the newlines after it. -/
def splitParagraphs : Text → Text → Nat → List Text
  | [], paragraph, newlines =>
    if 2 ≤ newlines then [paragraph, List.replicate newlines newline, []]
    else [paragraph ++ List.replicate newlines newline]
  | c :: rest, paragraph, newlines =>
    if c = newline then splitParagraphs rest paragraph (newlines + 1)
    else if 2 ≤ newlines then
      paragraph :: List.replicate newlines newline :: splitParagraphs rest [c] 0
    else splitParagraphs rest (paragraph ++ List.replicate newlines newline ++ [c]) 0

def splitIntoSlackSections (text : Text) (maxChars maxSections : Nat) :
    Except SectionError (List Text) :=
  if trim text = [] then .ok []
  else if text.length ≤ maxChars then .ok [text]
  else
    match SlackSectionAccumulator.appendSourceTokens maxChars maxSections
      (splitParagraphs text [] 0) {} with
    | .error e => .error e
    | .ok acc => acc.finish maxChars

end BackgroundAgents.Slack

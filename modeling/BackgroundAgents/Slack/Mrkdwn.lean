import BackgroundAgents.Lib.Regexes

/-!
# Sanitizers for Slack `mrkdwn`

The text that an agent posts to Slack loses its broadcast mentions, its links and,
unless they are allowed, its user mentions. Taking a token out can join what stood
around it into another one, so `sanitizeAgentText` repeats its pass until nothing
changes, and truncates what is left.

A text is the list of its UTF-16 units, which is what `length`, `slice` and a
pattern without the `u` flag count.
-/

namespace BackgroundAgents.Slack

open Regexes Regexes.Regex

/-- The units of a text all of whose characters take one. -/
def units (s : String) : List UInt16 := s.toList.map fun c => UInt16.ofNat c.toNat

inductive MentionPolicy where
  | allow
  | escape
  | strip
  deriving DecidableEq, Repr

structure SanitizeOptions where
  mentionsPolicy : MentionPolicy
  maxLength : Nat
  deriving DecidableEq, Repr

structure SanitizeResult where
  text : List UInt16
  truncated : Bool
  strippedBroadcasts : Bool
  mentionsModified : Bool
  deriving DecidableEq, Repr

def TRUNCATION_MARKER : List UInt16 := units "… (truncated)"

/-! ## The patterns -/

def between (low high c : UInt16) : Bool := low ≤ c && c ≤ high

def digit : UInt16 → Bool := between 0x30 0x39
def upper : UInt16 → Bool := between 0x41 0x5a
def lower : UInt16 → Bool := between 0x61 0x7a

/-- `\s` -/
def whiteSpace (c : UInt16) : Bool :=
  between 0x09 0x0d c || c = 0x20 || c = 0xa0 || c = 0x1680 || between 0x2000 0x200a c ||
    c = 0x2028 || c = 0x2029 || c = 0x202f || c = 0x205f || c = 0x3000 || c = 0xfeff

def pipe : UInt16 := 0x7c
def closing : UInt16 := 0x3e

/-- `(?:\|[^>]*)?>`, the label and the end of every token. -/
def labelled : Regex UInt16 :=
  seq (opt (seq (one (· = pipe)) (many (· ≠ closing)))) (one (· = closing))

def BROADCAST_MENTION_RE : Regex UInt16 :=
  lit (units "<!") <|
    seq
      (alt (exactly (units "channel")) <|
        alt (exactly (units "here")) <|
          alt (exactly (units "everyone")) <|
            lit (units "subteam^") (plus fun c => upper c || lower c || digit c))
      labelled

/-- `[^|>\s]+` -/
def address : Regex UInt16 := plus fun c => c ≠ pipe && c ≠ closing && !whiteSpace c

def URL_LINK_RE : Regex UInt16 :=
  lit (units "<") <|
    seq
      (group <|
        alt (lit (units "http") (seq (opt (one (· = 0x73))) (lit (units "://") address)))
          (lit (units "mailto:") address))
      labelled

def USER_MENTION_RE : Regex UInt16 :=
  lit (units "<@") (seq (group (plus fun c => upper c || digit c)) labelled)

/-! ## The rules -/

/-- `text.replace(BROADCAST_MENTION_RE, "")` -/
def broadcastRule : Rule UInt16 where
  regex := BROADCAST_MENTION_RE
  replacement := fun _ => []
  shorter := by
    intro t m hm
    have hlit : (m.group.getD []).length + 2 ≤ m.text.length := lit_group hm
    show 0 < m.text.length
    omega

/-- `text.replace(URL_LINK_RE, "$1")` -/
def linkRule : Rule UInt16 where
  regex := URL_LINK_RE
  replacement := fun m => m.group.getD []
  shorter := by
    intro t m hm
    have hlit : (m.group.getD []).length + 1 ≤ m.text.length := lit_group hm
    omega

/-- `text.replace(USER_MENTION_RE, "@$1")` -/
def escapeRule : Rule UInt16 where
  regex := USER_MENTION_RE
  replacement := fun m => 0x40 :: m.group.getD []
  shorter := by
    intro t m hm
    have hlit : (m.group.getD []).length + 2 ≤ m.text.length := lit_group hm
    rw [List.length_cons]
    omega

/-- `text.replace(USER_MENTION_RE, "")` -/
def stripRule : Rule UInt16 where
  regex := USER_MENTION_RE
  replacement := fun _ => []
  shorter := by
    intro t m hm
    have hlit : (m.group.getD []).length + 2 ≤ m.text.length := lit_group hm
    show 0 < m.text.length
    omega

/-! ## The sanitizers -/

def stripBroadcastMentions (text : List UInt16) : List UInt16 :=
  broadcastRule.pass.exhausted text

def sanitizeLinks (text : List UInt16) : List UInt16 := linkRule.replaceAll text

def applyMentionPolicy (text : List UInt16) : MentionPolicy → List UInt16
  | .allow => text
  | .escape => escapeRule.replaceAll text
  | .strip => stripRule.replaceAll text

def truncateForSlack (text : List UInt16) (maxLength : Nat) : List UInt16 × Bool :=
  if text.length ≤ maxLength then (text, false)
  else if maxLength < TRUNCATION_MARKER.length then (TRUNCATION_MARKER.take maxLength, true)
  else (text.take (maxLength - TRUNCATION_MARKER.length) ++ TRUNCATION_MARKER, true)

/-- `applyMentionPolicy` as an operation that shortens. -/
def mentionPass : MentionPolicy → Shrinking UInt16
  | .allow => Shrinking.unchanged
  | .escape => escapeRule.pass
  | .strip => stripRule.pass

/-- One turn of the loop. -/
def roundOf (policy : MentionPolicy) : Shrinking UInt16 :=
  broadcastRule.pass.exhaust.comp ((mentionPass policy).comp linkRule.pass)

theorem mentionPass_apply (policy : MentionPolicy) (text : List UInt16) :
    (mentionPass policy).apply text = applyMentionPolicy text policy := by
  cases policy with
  | allow => rfl
  | escape => rfl
  | strip => rfl

theorem roundOf_apply (policy : MentionPolicy) (text : List UInt16) :
    (roundOf policy).apply text =
      stripBroadcastMentions (applyMentionPolicy (sanitizeLinks text) policy) := by
  show stripBroadcastMentions ((mentionPass policy).apply (sanitizeLinks text)) = _
  rw [mentionPass_apply]

/-- The loop of `sanitizeAgentText`: the text, `strippedBroadcasts` and `mentionsModified`. -/
def sanitizeLoop (policy : MentionPolicy) (current : List UInt16)
    (strippedBroadcasts mentionsModified : Bool) : List UInt16 × Bool × Bool :=
  let afterLinks := sanitizeLinks current
  let afterMentions := applyMentionPolicy afterLinks policy
  let afterBroadcasts := stripBroadcastMentions afterMentions
  let modified := mentionsModified || decide (afterMentions ≠ afterLinks)
  let stripped := strippedBroadcasts || decide (afterBroadcasts ≠ afterMentions)
  if afterBroadcasts = current then (current, stripped, modified)
  else sanitizeLoop policy afterBroadcasts stripped modified
termination_by current.length
decreasing_by
  have hchanged : (roundOf policy).apply current ≠ current := by
    rw [roundOf_apply]
    exact ‹_›
  have hlt := (roundOf policy).lt hchanged
  rwa [roundOf_apply] at hlt

def sanitizeAgentText (text : List UInt16) (opts : SanitizeOptions) : SanitizeResult :=
  let current := sanitizeLoop opts.mentionsPolicy text false false
  let truncated := truncateForSlack current.1 opts.maxLength
  { text := truncated.1
    truncated := truncated.2
    strippedBroadcasts := current.2.1
    mentionsModified := current.2.2 }

/-! ## Texts without tokens -/

/-- No broadcast mention, no link and, unless they are allowed, no user mention. -/
structure Clean (policy : MentionPolicy) (text : List UInt16) : Prop where
  broadcast : ¬ BROADCAST_MENTION_RE.Contains text
  link : ¬ URL_LINK_RE.Contains text
  mention : policy ≠ .allow → ¬ USER_MENTION_RE.Contains text

variable {policy : MentionPolicy} {text : List UInt16}

theorem applyMentionPolicy_fixed :
    applyMentionPolicy text policy = text ↔
      (policy ≠ .allow → ¬ USER_MENTION_RE.Contains text) := by
  cases policy with
  | allow => exact ⟨fun _ h => absurd rfl h, fun _ => rfl⟩
  | escape =>
    constructor
    · exact fun h _ => escapeRule.fixed_iff.mp h
    · exact fun h => escapeRule.fixed_iff.mpr (h MentionPolicy.noConfusion)
  | strip =>
    constructor
    · exact fun h _ => stripRule.fixed_iff.mp h
    · exact fun h => stripRule.fixed_iff.mpr (h MentionPolicy.noConfusion)

theorem stripBroadcastMentions_fixed :
    stripBroadcastMentions text = text ↔ ¬ BROADCAST_MENTION_RE.Contains text := by
  constructor
  · intro h
    refine broadcastRule.fixed_iff.mp ?_
    have hfixed := broadcastRule.pass.exhausted_fixed text
    rwa [show broadcastRule.pass.exhausted text = text from h] at hfixed
  · exact fun h => broadcastRule.pass.exhausted_of_fixed (broadcastRule.fixed_iff.mpr h)

/-- The turns of the loop come to rest exactly at the clean texts. -/
theorem roundOf_fixed : (roundOf policy).apply text = text ↔ Clean policy text := by
  constructor
  · intro h
    obtain ⟨hinner, hbroadcast⟩ :=
      Shrinking.comp_fixed (g := broadcastRule.pass.exhaust)
        (f := (mentionPass policy).comp linkRule.pass) h
    obtain ⟨hlink, hmention⟩ :=
      Shrinking.comp_fixed (g := mentionPass policy) (f := linkRule.pass) hinner
    rw [mentionPass_apply] at hmention
    exact ⟨stripBroadcastMentions_fixed.mp hbroadcast, linkRule.fixed_iff.mp hlink,
      applyMentionPolicy_fixed.mp hmention⟩
  · intro h
    rw [roundOf_apply, show sanitizeLinks text = text from linkRule.fixed_iff.mpr h.link,
      applyMentionPolicy_fixed.mpr h.mention, stripBroadcastMentions_fixed.mpr h.broadcast]

/-- The loop computes the repetition of its turns. -/
theorem sanitizeLoop_text (text : List UInt16) (stripped modified : Bool) :
    (sanitizeLoop policy text stripped modified).1 = (roundOf policy).exhausted text := by
  rw [sanitizeLoop, ← roundOf_apply]
  by_cases h : (roundOf policy).apply text = text
  · rw [if_pos h, (roundOf policy).exhausted_of_fixed h]
  · rw [if_neg h, (roundOf policy).exhausted_step h]
    exact sanitizeLoop_text _ _ _
termination_by text.length
decreasing_by exact (roundOf policy).lt ‹_›

theorem sanitizeLoop_clean (text : List UInt16) (stripped modified : Bool) :
    Clean policy (sanitizeLoop policy text stripped modified).1 := by
  rw [sanitizeLoop_text]
  exact roundOf_fixed.mp ((roundOf policy).exhausted_fixed text)

theorem sanitizeLoop_of_clean (h : Clean policy text) :
    sanitizeLoop policy text false false = (text, false, false) := by
  have hlinks : sanitizeLinks text = text := linkRule.fixed_iff.mpr h.link
  rw [sanitizeLoop, hlinks, applyMentionPolicy_fixed.mpr h.mention,
    stripBroadcastMentions_fixed.mpr h.broadcast, if_pos rfl]
  simp

/-! ## Truncation -/

theorem marker_length : TRUNCATION_MARKER.length = 13 := by decide +kernel

theorem closing_notin_marker : closing ∉ TRUNCATION_MARKER := by decide +kernel

theorem labelled_endsWith : labelled.EndsWith closing := (endsWith_one closing).seq

/-- No token ends in the marker, and none is only there when the text has been cut. -/
theorem Clean.truncated {front : List UInt16} {n : Nat} (h : Clean policy text)
    (hfront : front <+: text) : Clean policy (front ++ TRUNCATION_MARKER.take n) := by
  have hmarker : closing ∉ TRUNCATION_MARKER.take n :=
    fun hmem => closing_notin_marker (List.mem_of_mem_take hmem)
  have hcut : ∀ {r : Regex UInt16}, r.EndsWith closing → ¬ r.Contains text →
      ¬ r.Contains (front ++ TRUNCATION_MARKER.take n) := by
    intro r hends hnone hcontains
    exact hnone ((hcontains.of_append hends hmarker).mono hfront.isInfix)
  exact
    { broadcast := hcut (labelled_endsWith.seq.lit _) h.broadcast
      link := hcut (labelled_endsWith.seq.lit _) h.link
      mention := fun hpolicy => hcut (labelled_endsWith.seq.lit _) (h.mention hpolicy) }

theorem truncateForSlack_clean (h : Clean policy text) (maxLength : Nat) :
    Clean policy (truncateForSlack text maxLength).1 := by
  unfold truncateForSlack
  split
  · exact h
  · split
    · have hcut : Clean policy ([] ++ TRUNCATION_MARKER.take maxLength) :=
        h.truncated List.nil_prefix
      exact hcut
    · have hcut := h.truncated (n := 13)
        (List.take_prefix (maxLength - TRUNCATION_MARKER.length) text)
      rwa [← marker_length, List.take_length] at hcut

theorem truncateForSlack_le (text : List UInt16) (maxLength : Nat) :
    (truncateForSlack text maxLength).1.length ≤ maxLength := by
  unfold truncateForSlack
  split
  next h => exact h
  next h =>
    split
    next => exact List.length_take_le _ _
    next hroom =>
      show (text.take (maxLength - TRUNCATION_MARKER.length) ++ TRUNCATION_MARKER).length ≤ _
      rw [List.length_append, List.length_take]
      omega

/-- Whatever the text, the policy and the bound: the sanitized text has no control token
left, it keeps the bound, sanitizing it again changes nothing and finds nothing, and a
text without tokens is at most truncated. -/
theorem sanitizeAgentText_safe (text : List UInt16) (opts : SanitizeOptions) :
    Clean opts.mentionsPolicy (sanitizeAgentText text opts).text ∧
    (sanitizeAgentText text opts).text.length ≤ opts.maxLength ∧
    sanitizeAgentText (sanitizeAgentText text opts).text opts =
      { text := (sanitizeAgentText text opts).text
        truncated := false
        strippedBroadcasts := false
        mentionsModified := false } ∧
    (Clean opts.mentionsPolicy text →
      sanitizeAgentText text opts =
        { text := (truncateForSlack text opts.maxLength).1
          truncated := (truncateForSlack text opts.maxLength).2
          strippedBroadcasts := false
          mentionsModified := false }) := by
  have hunchanged : ∀ {t : List UInt16}, Clean opts.mentionsPolicy t →
      sanitizeAgentText t opts =
        { text := (truncateForSlack t opts.maxLength).1
          truncated := (truncateForSlack t opts.maxLength).2
          strippedBroadcasts := false
          mentionsModified := false } := by
    intro t ht
    rw [sanitizeAgentText, sanitizeLoop_of_clean ht]
  have hclean : Clean opts.mentionsPolicy (sanitizeAgentText text opts).text :=
    truncateForSlack_clean (sanitizeLoop_clean text false false) opts.maxLength
  have hle : (sanitizeAgentText text opts).text.length ≤ opts.maxLength :=
    truncateForSlack_le _ opts.maxLength
  refine ⟨hclean, hle, ?_, hunchanged⟩
  rw [hunchanged hclean, truncateForSlack, if_pos hle]

end BackgroundAgents.Slack

import BackgroundAgents.Lib.Bytes
import BackgroundAgents.Lib.Uri
import BackgroundAgents.Session.EventPages

/-!
# Listing events through text cursors, and scrolling back

`event-cursor.ts` writes the position after a page as a text, and the next request brings it
back; `event-stream.ts` answers a subscription with the newest events and `fetch_history` with
the page before a position. Both are seen here from the client: what it collects that sends
back every cursor it was given (`followTexts`), and what it shows that puts each history page
before what it has (`scrollBack`), while events are still being stored.

What `Number` makes of a text is a parameter, `none` where that is `NaN` or infinite; of it
only the decimals that the cursors are written with matter. Identifiers are texts without
unpaired surrogates; where a cursor brings one, the query is bound to U+FFFD in its place.
-/

namespace BackgroundAgents.Session

open Keyset

/-- UTF-16 units, as a cursor is sent. -/
abbrev CursorText := List UInt16

/-- `:` -/
def separatorUnit : UInt16 := 0x3a

/-- `Number.MAX_SAFE_INTEGER` -/
def MAX_SAFE_INTEGER : Nat := 2 ^ 53 - 1

/-- `${n}` -/
def decimalText (n : Nat) : CursorText := (Bytes.digits n).map fun d => UInt16.ofNat (0x30 + d)

/-! ## `event-cursor.ts` -/

/-- `encodeEventTimelineCursor`, where `none` is the `URIError` of `encodeURIComponent`. -/
def encodeEventTimelineCursor (cursor : EventTimelineCursor) : Option CursorText :=
  (Uri.encodeURIComponent (Utf16.encode cursor.id.toList)).map fun id =>
    match cursor.sequence with
    | none => decimalText cursor.createdAt ++ separatorUnit :: id
    | some sequence =>
      decimalText cursor.createdAt ++ separatorUnit :: (decimalText sequence ++ separatorUnit :: id)

/-- `Number.isSafeInteger(value) && value >= 0` -/
def safeNatural (value : Option ℚ) : Option Nat :=
  value.bind fun q =>
    if q.den = 1 ∧ 0 ≤ q.num ∧ q.num ≤ MAX_SAFE_INTEGER then some q.num.toNat else none

/-- An identifier, as the query is bound to it. -/
def boundId (units : CursorText) : String := String.ofList (Utf16.decodeLossy units)

section

variable (number : CursorText → Option ℚ)

/-- `decodeCompositeEventCursor` -/
def decodeCompositeEventCursor (raw : CursorText) : Option EventTimelineCursor :=
  match raw.findIdx? (· = separatorUnit) with
  | none => none
  | some 0 => none
  | some (n + 1) =>
    (safeNatural (number (raw.take (n + 1)))).bind fun createdAt =>
      let remainder := raw.drop (n + 2)
      let unsequenced : Option EventTimelineCursor :=
        (Uri.decodeURIComponent remainder).bind fun id =>
          if id = [] then none else some { createdAt := createdAt, id := boundId id }
      match remainder.findIdx? (· = separatorUnit) with
      | some (m + 1) =>
        -- a tail that does not decode ends it, whatever stands before it
        (Uri.decodeURIComponent (remainder.drop (m + 2))).bind fun id =>
          match safeNatural (number (remainder.take (m + 1))) with
          | some sequence =>
            if id = [] then unsequenced
            else some { createdAt := createdAt, id := boundId id, sequence := some sequence }
          | none => unsequenced
      | _ => unsequenced

/-- `parseEventTimelineCursor`, of a query parameter. -/
def parseEventTimelineCursor (raw : Option CursorText) (fieldName : String) :
    Except String (Option EventTimelineCursor) :=
  match raw with
  | none => .ok none
  | some [] => .ok none
  | some text =>
    match decodeCompositeEventCursor number text with
    | some cursor => .ok (some cursor)
    | none => .error s!"Invalid {fieldName}"

/-- `parseEventListCursor`, of a query parameter. -/
def parseEventListCursor (raw : Option CursorText) (fieldName : String) :
    Except String (Option EventListCursor) :=
  match raw with
  | none => .ok none
  | some [] => .ok none
  | some text =>
    match decodeCompositeEventCursor number text with
    | some cursor => .ok (some (.timeline cursor))
    | none =>
      match safeNatural (number text) with
      | some createdAt => .ok (some (.legacy createdAt))
      | none => .error s!"Invalid {fieldName}"

/-! ## `listEvents` -/

/-- `eventTypeSchema` -/
def eventTypes : List String :=
  ["heartbeat", "ready", "sandbox_generation_ready", "preservation_prepared", "token", "tool_call",
    "step_start", "step_finish", "tool_result", "git_sync", "error", "execution_complete",
    "context_compacted", "push_complete", "push_error", "warning", "boot_progress",
    "session_title", "snapshot_ready", "user_message", "artifact"]

inductive ListEventsResponse where
  | refused (error : String) (status : Nat)
  | page (events : List TimelineRow) (cursor : Option CursorText) (hasMore : Bool)
  deriving DecidableEq, Repr

/-- An empty text filters nothing, and is no error. -/
def typeAccepted (type : Option String) : Bool :=
  match type with
  | none => true
  | some type => type.isEmpty || eventTypes.contains type

/-- The filter of a listing. -/
def listFilter (type messageId : Option String) : EventFilter :=
  { type := type, messageId := messageId }

/-- `listEvents` of the messages handler, `limit` being what `parseInt` made of the parameter. -/
def listEvents (stored : StoredEvents) (type messageId : Option String) (cursor : Option CursorText)
    (limit : Int) : ListEventsResponse :=
  if typeAccepted type then
    match parseEventListCursor number cursor "cursor" with
    | .error error => .refused error 400
    | .ok cursor =>
      let page := queryEventPage stored (listFilter type messageId) cursor (min limit 200).toNat
      .page page.events (page.nextCursor.bind encodeEventTimelineCursor) page.hasMore
  else .refused ("Invalid event type: " ++ type.getD "") 400

/-- What a client collects that sends back each cursor while `hasMore`; a page that has more
and no cursor ends it. -/
def followTexts (stored : StoredEvents) (type messageId : Option String)
    (cursor : Option CursorText) : List Int → Option (List TimelineRow)
  | [] => none
  | limit :: limits =>
    match listEvents number stored type messageId cursor limit with
    | .refused _ _ => none
    | .page events next hasMore =>
      if hasMore then
        match next with
        | none => some events
        | some text => (followTexts stored type messageId (some text) limits).map (events ++ ·)
      else some events

end

/-! ## A cursor comes back -/

/-- What a cursor of a stored event satisfies. -/
structure EventTimelineCursor.Wellformed (cursor : EventTimelineCursor) : Prop where
  id : cursor.id ≠ ""
  createdAt : cursor.createdAt ≤ MAX_SAFE_INTEGER
  sequence : ∀ sequence ∈ cursor.sequence, sequence ≤ MAX_SAFE_INTEGER

/-- `Number` reads the decimal of a safe integer as that integer. -/
def ReadsDecimals (number : CursorText → Option ℚ) : Prop :=
  ∀ n ≤ MAX_SAFE_INTEGER, number (decimalText n) = some (n : ℚ)

theorem safeNatural_natCast {n : Nat} (h : n ≤ MAX_SAFE_INTEGER) :
    safeNatural (some (n : ℚ)) = some n := by
  show (if (n : ℚ).den = 1 ∧ 0 ≤ (n : ℚ).num ∧ (n : ℚ).num ≤ (MAX_SAFE_INTEGER : Int) then
    some (n : ℚ).num.toNat else none) = some n
  rw [Rat.num_natCast, Rat.den_natCast]
  have hle : (n : Int) ≤ (MAX_SAFE_INTEGER : Int) := Int.ofNat_le.mpr h
  rw [if_pos ⟨rfl, Int.natCast_nonneg n, hle⟩, Int.toNat_natCast]

theorem separator_notMem_decimalText (n : Nat) : separatorUnit ∉ decimalText n := by
  intro h
  obtain ⟨d, hd, heq⟩ := List.mem_map.mp h
  have hlt := Bytes.digits_lt hd
  have hunit : (UInt16.ofNat (0x30 + d)).toNat = 0x30 + d := Utf16.toNat_ofNat (by omega)
  rw [heq] at hunit
  have hcolon : separatorUnit.toNat = 0x3a := rfl
  omega

theorem decimalText_cons (n : Nat) : ∃ u t, decimalText n = u :: t := by
  refine List.exists_cons_of_ne_nil ?_
  show (Bytes.digits n).map _ ≠ []
  rw [Ne, List.map_eq_nil_iff]
  exact Bytes.digits_ne_nil n

/-- The value of decimal digits. -/
def readDecimal (text : CursorText) : Option ℚ :=
  if text ≠ [] ∧ text.all fun u => 0x30 ≤ u.toNat && u.toNat ≤ 0x39 then
    some (Bytes.value (text.map fun u => u.toNat - 0x30) : ℚ)
  else none

theorem readDecimal_reads : ReadsDecimals readDecimal := by
  intro n _
  have hunit : ∀ d ∈ Bytes.digits n, (UInt16.ofNat (0x30 + d)).toNat = 0x30 + d ∧ d < 10 := by
    intro d hd
    have hlt := Bytes.digits_lt hd
    exact ⟨Utf16.toNat_ofNat (by omega), hlt⟩
  have hback : (decimalText n).map (fun u => u.toNat - 0x30) = Bytes.digits n := by
    show ((Bytes.digits n).map _).map _ = _
    rw [List.map_map]
    refine (List.map_congr_left fun d hd => ?_).trans (List.map_id _)
    show (UInt16.ofNat (0x30 + d)).toNat - 0x30 = d
    rw [(hunit d hd).1, Nat.add_sub_cancel_left]
  have hdigits : (decimalText n).all (fun u => 0x30 ≤ u.toNat && u.toNat ≤ 0x39) = true := by
    rw [List.all_eq_true]
    intro u hu
    obtain ⟨d, hd, rfl⟩ := List.mem_map.mp hu
    obtain ⟨heq, hlt⟩ := hunit d hd
    rw [heq, Bool.and_eq_true, decide_eq_true_eq, decide_eq_true_eq]
    omega
  obtain ⟨u, t, htext⟩ := decimalText_cons n
  have hne : decimalText n ≠ [] := by
    rw [htext]
    exact List.cons_ne_nil u t
  unfold readDecimal
  rw [if_pos ⟨hne, hdigits⟩, hback, Bytes.value_digits]

/-- The first separator of a text that begins with a number and one. -/
theorem findIdx?_decimalText (n : Nat) (rest : CursorText) :
    ∃ m, (decimalText n ++ separatorUnit :: rest).findIdx? (· = separatorUnit) = some (m + 1) ∧
      (decimalText n ++ separatorUnit :: rest).take (m + 1) = decimalText n ∧
      (decimalText n ++ separatorUnit :: rest).drop (m + 2) = rest := by
  obtain ⟨u, t, htext⟩ := decimalText_cons n
  have hnone : (decimalText n).findIdx? (· = separatorUnit) = none := by
    rw [List.findIdx?_eq_none_iff]
    intro v hv
    exact decide_eq_false fun heq => separator_notMem_decimalText n (heq ▸ hv)
  have hlength : (decimalText n).length = t.length + 1 := by rw [htext, List.length_cons]
  refine ⟨t.length, ?_, ?_, ?_⟩
  · rw [List.findIdx?_append, hnone, Option.none_or, List.findIdx?_cons, decide_eq_true rfl,
      if_pos rfl, Option.map_some, hlength, Nat.zero_add]
  · rw [← hlength, List.take_left]
  · have hpast : t.length + 2 = (decimalText n).length + 1 := by omega
    rw [hpast, List.drop_length_add_append]
    rfl

/-- The identifier of a cursor, written and read. -/
theorem encoded_id (id : String) :
    ∃ text, Uri.encodeURIComponent (Utf16.encode id.toList) = some text ∧
      Uri.decodeURIComponent text = some (Utf16.encode id.toList) ∧ separatorUnit ∉ text ∧
      boundId (Utf16.encode id.toList) = id := by
  refine ⟨Uri.encode Uri.unreserved id.toList, ?_, Uri.decode_encode Uri.unreserved_keeps _,
    Uri.not_mem_encode (fun _ h => h) (by decide), ?_⟩
  · show (Utf16.decode (Utf16.encode id.toList)).map _ = _
    rw [Utf16.decode_encode, Option.map_some]
  · show String.ofList (Utf16.decodeLossy (Utf16.encode id.toList)) = id
    rw [Utf16.decodeLossy_of_decode (Utf16.decode_encode _), String.ofList_toList]

theorem encode_ne_nil {id : String} (h : id ≠ "") : Utf16.encode id.toList ≠ [] := by
  intro hnil
  have hempty : id.toList = [] := Utf16.encode_injective hnil
  exact h (by rw [← String.ofList_toList (s := id), hempty])

variable {number : CursorText → Option ℚ} {cursor : EventTimelineCursor}

/-- **Round trip.** The text of a cursor is read as that cursor. -/
theorem decode_encodeEventTimelineCursor (hnumber : ReadsDecimals number)
    (h : cursor.Wellformed) :
    ∃ text, encodeEventTimelineCursor cursor = some text ∧ text ≠ [] ∧
      decodeCompositeEventCursor number text = some cursor := by
  obtain ⟨createdAt, id, sequence⟩ := cursor
  obtain ⟨text, hencode, hdecode, hsep, hbound⟩ := encoded_id id
  have hid := encode_ne_nil h.id
  have hcreated : safeNatural (number (decimalText createdAt)) = some createdAt := by
    rw [hnumber createdAt h.createdAt]
    exact safeNatural_natCast h.createdAt
  unfold encodeEventTimelineCursor
  rw [hencode, Option.map_some]
  cases sequence with
  | none =>
    refine ⟨_, rfl, List.append_ne_nil_of_right_ne_nil _ (List.cons_ne_nil _ _), ?_⟩
    obtain ⟨n, hfind, htake, hdrop⟩ := findIdx?_decimalText createdAt text
    have hlast : text.findIdx? (· = separatorUnit) = none := by
      rw [List.findIdx?_eq_none_iff]
      intro v hv
      exact decide_eq_false fun heq => hsep (heq ▸ hv)
    unfold decodeCompositeEventCursor
    simp only [hfind, htake, hdrop, hcreated, Option.bind_some, hlast, hdecode, hid, if_false,
      hbound]
  | some sequence =>
    refine ⟨_, rfl, List.append_ne_nil_of_right_ne_nil _ (List.cons_ne_nil _ _), ?_⟩
    obtain ⟨n, hfind, htake, hdrop⟩ :=
      findIdx?_decimalText createdAt (decimalText sequence ++ separatorUnit :: text)
    obtain ⟨m, hfind', htake', hdrop'⟩ := findIdx?_decimalText sequence text
    have hle := h.sequence sequence rfl
    have hsequence : safeNatural (number (decimalText sequence)) = some sequence := by
      rw [hnumber sequence hle]
      exact safeNatural_natCast hle
    unfold decodeCompositeEventCursor
    simp only [hfind, htake, hdrop, hcreated, Option.bind_some, hfind', htake', hdrop', hdecode,
      hsequence, hid, if_false, hbound]

/-- **Cursor texts tell positions apart,** and both parsers take back what was written. -/
theorem cursor_texts_exact {other : EventTimelineCursor} (hnumber : ReadsDecimals number)
    (h : cursor.Wellformed) (hother : other.Wellformed) (fieldName : String) :
    (∃ text, encodeEventTimelineCursor cursor = some text ∧
      parseEventTimelineCursor number (some text) fieldName = .ok (some cursor) ∧
      parseEventListCursor number (some text) fieldName = .ok (some (.timeline cursor))) ∧
    (encodeEventTimelineCursor cursor = encodeEventTimelineCursor other → cursor = other) := by
  obtain ⟨text, hencode, hne, hdecode⟩ := decode_encodeEventTimelineCursor hnumber h
  obtain ⟨text', hencode', -, hdecode'⟩ := decode_encodeEventTimelineCursor hnumber hother
  refine ⟨⟨text, hencode, ?_⟩, fun heq => ?_⟩
  · cases text with
    | nil => exact absurd rfl hne
    | cons u t =>
      unfold parseEventTimelineCursor parseEventListCursor
      simp only [hdecode, and_self]
  · rw [hencode, hencode', Option.some.injEq] at heq
    rw [heq, hdecode'] at hdecode
    exact (Option.some.inj hdecode).symm

theorem cursor_texts_exact_escaped :
    (∃ text, encodeEventTimelineCursor ⟨1, "a:b", none⟩ = some text ∧
      parseEventTimelineCursor readDecimal (some text) "cursor" = .ok (some ⟨1, "a:b", none⟩) ∧
      parseEventListCursor readDecimal (some text) "cursor" =
        .ok (some (.timeline ⟨1, "a:b", none⟩))) ∧
      encodeEventTimelineCursor ⟨1, "a:b", none⟩ ≠ encodeEventTimelineCursor ⟨1, "b", some 2⟩ := by
  have hescaped : EventTimelineCursor.Wellformed ⟨1, "a:b", none⟩ :=
    { id := by decide
      createdAt := by decide
      sequence := by
        intro sequence h
        cases h }
  have hplain : EventTimelineCursor.Wellformed ⟨1, "b", some 2⟩ :=
    { id := by decide
      createdAt := by decide
      sequence := by
        intro sequence h
        rw [← Option.some.inj h]
        decide }
  obtain ⟨hread, hinj⟩ := cursor_texts_exact readDecimal_reads hescaped hplain "cursor"
  exact ⟨hread, fun heq => absurd (hinj heq) (by decide)⟩

/-! ## The listing, followed by its texts -/

variable {stored : StoredEvents} {f : EventFilter} {type messageId : Option String}

/-- A listed event is stored. -/
theorem listed_stored {cursor : Option EventListCursor} {front rest : List TimelineRow}
    {last : TimelineRow} (h : orderedEvents stored f cursor = front ++ last :: rest) :
    last ∈ stored.rows := by
  have hmem : last ∈ orderedEvents stored f cursor := by
    rw [h]
    exact List.mem_append_right _ List.mem_cons_self
  exact (mem_orderedEvents.mp hmem).1

theorem length_orderedEvents_le (stored : StoredEvents) (f : EventFilter) :
    (orderedEvents stored f none).length ≤ stored.rows.length := by
  show (newestFirst TimelineRow.bySequence (eligible stored f none)).length ≤ _
  rw [length_newestFirst]
  exact (eligible_sublist stored f none).length_le

/-- The events have cursors that can be sent. -/
def StoredEvents.Sendable (stored : StoredEvents) : Prop :=
  ∀ row ∈ stored.rows, (eventTimelineCursorFromRow row).Wellformed

/-- The pages a request asks for. -/
def pageSizes (limits : List Int) : List Nat := limits.map fun limit => (min limit 200).toNat

theorem parseEventListCursor_encoded {text : CursorText} (hne : text ≠ [])
    (h : decodeCompositeEventCursor number text = some cursor) :
    parseEventListCursor number (some text) "cursor" = .ok (some (.timeline cursor)) := by
  cases text with
  | nil => exact absurd rfl hne
  | cons u t =>
    unfold parseEventListCursor
    simp only [h]

/-- Texts lead from page to page as the cursors do that they stand for. -/
theorem followTexts_eq (hnumber : ReadsDecimals number) (hstored : stored.Sendable)
    (htype : typeAccepted type = true) :
    ∀ (limits : List Int) {text : Option CursorText} {cursor : Option EventListCursor},
      (∀ limit ∈ limits, 1 ≤ limit) → parseEventListCursor number text "cursor" = .ok cursor →
      followTexts number stored type messageId text limits =
        follow stored (listFilter type messageId) cursor (pageSizes limits)
  | [], _, _, _, _ => rfl
  | limit :: limits, text, cursor, hpos, hparse => by
    have hlimit : 1 ≤ limit := hpos limit List.mem_cons_self
    have hsize : 1 ≤ (min limit 200).toNat := by omega
    have hpage : listEvents number stored type messageId text limit =
        let page := queryEventPage stored (listFilter type messageId) cursor (min limit 200).toNat
        .page page.events (page.nextCursor.bind encodeEventTimelineCursor) page.hasMore := by
      unfold listEvents
      rw [if_pos htype, hparse]
    show _ = follow stored _ cursor ((min limit 200).toNat :: pageSizes limits)
    rw [followTexts, follow, hpage]
    dsimp only
    rcases Nat.lt_or_ge (min limit 200).toNat
      (orderedEvents stored (listFilter type messageId) cursor).length with hmore | hlast
    · obtain ⟨front, last, rest, hsplit, hfront, hrest⟩ := split_page hsize hmore
      obtain ⟨hm, he, hn⟩ := queryEventPage_more hsplit hfront hrest
      obtain ⟨next, hencode, hne, hdecode⟩ :=
        decode_encodeEventTimelineCursor hnumber (hstored last (listed_stored hsplit))
      rw [if_pos hm, if_pos hm, hn, Option.bind_some, hencode, Option.map_some]
      dsimp only
      rw [followTexts_eq hnumber hstored htype limits
        (fun l hl => hpos l (List.mem_cons_of_mem _ hl))
        (parseEventListCursor_encoded hne hdecode)]
    · obtain ⟨hm, -⟩ := queryEventPage_last hlast
      rw [hm, if_neg Bool.false_ne_true, if_neg Bool.false_ne_true]

/-- **The listing is complete over its texts.** A client that sends back each cursor text
collects every event of the type and the message exactly once, newest first, whatever limits
it asks for. -/
theorem event_list_by_texts (hnumber : ReadsDecimals number) (hstored : stored.Sendable)
    (htype : typeAccepted type = true) (messageId : Option String) (limits : List Int)
    (hpos : ∀ limit ∈ limits, 1 ≤ limit) (henough : stored.rows.length < limits.length) :
    ∃ visited, followTexts number stored type messageId none limits = some visited ∧
      ExactListing stored (listFilter type messageId) none visited := by
  refine ⟨_, ?_, orderedEvents_exact stored (listFilter type messageId) none⟩
  have hlength : (pageSizes limits).length = limits.length := List.length_map _
  have hfirst : parseEventListCursor number none "cursor" = .ok none := rfl
  rw [followTexts_eq hnumber hstored htype limits hpos hfirst]
  refine follow_bySequence _ (fun n hn => ?_) (fun hnil => ?_) ?_ rfl
  · obtain ⟨limit, hlimit, rfl⟩ := List.mem_map.mp hn
    have := hpos limit hlimit
    omega
  · rw [hnil] at hlength
    exact Nat.not_lt_zero _ (hlength ▸ henough)
  · have hshort := length_orderedEvents_le stored (listFilter type messageId)
    omega

theorem event_list_by_texts_tied :
    ∃ visited, followTexts readDecimal tiedEvents (some "tool_call") none none [1, 7, 900, 2] =
        some visited ∧
      ExactListing tiedEvents (listFilter (some "tool_call") none) none visited :=
  event_list_by_texts readDecimal_reads
    (by
      intro row hrow
      have hrows : ∀ row ∈ tiedEvents.rows, row.id ≠ "" ∧ row.createdAt ≤ 10 ∧
          row.timelineSequence ≤ 3 := by decide
      obtain ⟨hid, hcreated, hsequence⟩ := hrows row hrow
      exact
        { id := hid
          createdAt := Nat.le_trans hcreated (by decide)
          sequence := by
            intro sequence hsome
            obtain rfl := Option.some.inj hsome
            exact Nat.le_trans hsequence (by decide) })
    (by decide) none _ (by decide) (by decide)

/-! ## `event-stream.ts` -/

def DEFAULT_REPLAY_LIMIT : Nat := 500
def DEFAULT_HISTORY_LIMIT : Int := 200
def MIN_HISTORY_LIMIT : Int := 1
def MAX_HISTORY_LIMIT : Int := 500
def HISTORY_EXCLUDED_TYPES : List String := ["heartbeat"]

/-- The cursor of `fetch_history`. -/
structure EventStreamCursor where
  timestamp : Millis
  id : String
  sequence : Option Nat := none
  deriving DecidableEq, Repr

def toEventStreamCursor (cursor : EventTimelineCursor) : EventStreamCursor where
  timestamp := cursor.createdAt
  id := cursor.id
  sequence := cursor.sequence

/-- `SessionTimeline`, and a history page. -/
structure SessionTimeline (ε : Type) where
  events : List ε
  hasMore : Bool
  cursor : Option EventStreamCursor
  deriving DecidableEq, Repr

/-- An integer limit; without one, the default. -/
def clampHistoryLimit (limit : Option Int) : Nat :=
  (max MIN_HISTORY_LIMIT (min (limit.getD DEFAULT_HISTORY_LIMIT) MAX_HISTORY_LIMIT)).toNat

/-- What both leave out. -/
def historyFilter : EventFilter := { excludeTypes := HISTORY_EXCLUDED_TYPES }

section

/-! `parseEvent` is `sessionTimelineEventSchema` on a row and its data. -/

variable {ε : Type} (parseEvent : TimelineRow → Option ε)

/-- A malformed row is left out. -/
def parseSessionTimelineEvents (rows : List TimelineRow) : List ε := rows.filterMap parseEvent

def timelineOf (page : EventPage) : SessionTimeline ε where
  events := parseSessionTimelineEvents parseEvent page.events
  hasMore := page.hasMore
  cursor := page.nextCursor.map toEventStreamCursor

def getReplay (stored : StoredEvents) : SessionTimeline ε :=
  timelineOf parseEvent (getEventTimelinePage stored historyFilter none DEFAULT_REPLAY_LIMIT)

def getHistoryPage (stored : StoredEvents) (cursor : EventStreamCursor) (limit : Option Int) :
    SessionTimeline ε :=
  timelineOf parseEvent
    (getEventTimelinePage stored historyFilter
      (some (.timeline
        { createdAt := cursor.timestamp, id := cursor.id, sequence := cursor.sequence }))
      (clampHistoryLimit limit))

/-- What a client shows that has a page and asks for the ones before it, each request with the
events stored by then and a limit; `none` when more is left than it asks for. -/
def scrollBack (shown : List ε) (hasMore : Bool) (cursor : Option EventStreamCursor) :
    List (StoredEvents × Option Int) → Option (List ε)
  | [] => if hasMore then none else some shown
  | (stored, limit) :: requests =>
    if hasMore then
      cursor.bind fun cursor =>
        let page := getHistoryPage parseEvent stored cursor limit
        scrollBack (page.events ++ shown) page.hasMore page.cursor requests
    else some shown

/-- The replay first. -/
def showTimeline (stored : StoredEvents) (requests : List (StoredEvents × Option Int)) :
    Option (List ε) :=
  let replay := getReplay parseEvent stored
  scrollBack parseEvent replay.events replay.hasMore replay.cursor requests

end

/-- Later on there are the same events, and ones after all of them. -/
structure StoredEvents.Extends (later stored : StoredEvents) : Prop where
  kept : ∀ row ∈ stored.rows, row ∈ later.rows
  newer : ∀ row ∈ later.rows, row ∉ stored.rows →
    ∀ old ∈ stored.rows, old.bySequence < row.bySequence

variable {later : StoredEvents} {last : TimelineRow}

/-- What is older than a stored event does not change. -/
theorem StoredEvents.Extends.orderedEvents_eq (h : later.Extends stored)
    (hlast : last ∈ stored.rows) :
    orderedEvents later f (cursorAfter last) = orderedEvents stored f (cursorAfter last) := by
  refine (orderedEvents_descending later f rfl).ext (orderedEvents_descending stored f rfl) ?_
  intro row
  rw [mem_orderedEvents_after, mem_orderedEvents_after]
  constructor
  · intro hrow
    obtain ⟨hmem, hkeeps, hlt⟩ := hrow
    refine ⟨?_, hkeeps, hlt⟩
    by_contra hnew
    exact lt_asymm hlt (h.newer row hmem hnew last hlast)
  · intro hrow
    exact ⟨h.kept row hrow.1, hrow.2⟩

variable {ε : Type} {parseEvent : TimelineRow → Option ε}

theorem scrollBack_end (shown : List ε) (cursor : Option EventStreamCursor)
    (requests : List (StoredEvents × Option Int)) :
    scrollBack parseEvent shown false cursor requests = some shown := by
  cases requests with
  | nil => rfl
  | cons request requests => rfl

/-- The last page is shown before the rest. -/
theorem scrollBack_last {cursor : Option EventListCursor} {limit : Nat}
    (hm : (queryEventPage later historyFilter cursor limit).hasMore = false)
    (he : (queryEventPage later historyFilter cursor limit).events =
      orderedEvents later historyFilter cursor)
    (shown : List ε) (requests : List (StoredEvents × Option Int)) :
    let page := timelineOf parseEvent (getEventTimelinePage later historyFilter cursor limit)
    scrollBack parseEvent (page.events ++ shown) page.hasMore page.cursor requests =
      some ((orderedEvents later historyFilter cursor).reverse.filterMap parseEvent ++ shown) := by
  intro page
  have hmore : page.hasMore = false := hm
  have hevents : page.events =
      (orderedEvents later historyFilter cursor).reverse.filterMap parseEvent := by
    rw [← he]
    rfl
  rw [hmore, hevents]
  exact scrollBack_end _ _ requests

/-- From a page on, what is shown grows to the whole listing that the page is of. -/
theorem scrollBack_page :
    ∀ (requests : List (StoredEvents × Option Int)) {later : StoredEvents}
      {cursor : Option EventListCursor} {limit : Nat} (shown : List ε),
      (∀ request ∈ requests, request.1.Extends stored) →
      orderedEvents later historyFilter cursor = orderedEvents stored historyFilter cursor →
      breaksTiesById cursor = false → 1 ≤ limit →
      (orderedEvents stored historyFilter cursor).length ≤ requests.length + 1 →
      let page := timelineOf parseEvent (getEventTimelinePage later historyFilter cursor limit)
      scrollBack parseEvent (page.events ++ shown) page.hasMore page.cursor requests =
        some ((orderedEvents stored historyFilter cursor).reverse.filterMap parseEvent ++ shown) := by
  intro requests
  induction requests with
  | nil =>
    intro later cursor limit shown _ hsame _ hlimit hlength
    rw [← hsame] at hlength ⊢
    obtain ⟨hm, he⟩ := queryEventPage_last (Nat.le_trans hlength hlimit)
    exact scrollBack_last hm he shown []
  | cons request requests ih =>
    intro later cursor limit shown hlater hsame hkind hlimit hlength
    rw [← hsame] at hlength ⊢
    rcases Nat.lt_or_ge limit (orderedEvents later historyFilter cursor).length with hmore | hlast
    · obtain ⟨front, last, rest, hsplit, hfront, hrest⟩ := split_page hlimit hmore
      obtain ⟨hm, he, hn⟩ := queryEventPage_more hsplit hfront hrest
      have hstored : last ∈ stored.rows := listed_stored (hsame.symm.trans hsplit)
      have hafter : orderedEvents stored historyFilter (cursorAfter last) = rest :=
        orderedEvents_after hkind (hsame.symm.trans hsplit)
      have hextends := hlater request List.mem_cons_self
      obtain ⟨store, size⟩ := request
      intro page
      have hpage : page.hasMore = true := hm
      have hcursor : page.cursor =
          some (toEventStreamCursor (eventTimelineCursorFromRow last)) :=
        congrArg (Option.map toEventStreamCursor) hn
      have hevents : page.events = (front ++ [last]).reverse.filterMap parseEvent := by
        rw [← he]
        rfl
      have hshort : rest.length ≤ requests.length + 1 := by
        rw [hsplit, List.length_append, List.length_cons, List.length_cons] at hlength
        omega
      have hclamp : 1 ≤ clampHistoryLimit size := by
        unfold clampHistoryLimit MIN_HISTORY_LIMIT
        omega
      have hnext := ih (page.events ++ shown) (fun r hr => hlater r (List.mem_cons_of_mem _ hr))
        (hextends.orderedEvents_eq (f := historyFilter) hstored) rfl hclamp (hafter ▸ hshort)
      rw [hafter, hevents] at hnext
      rw [hpage, hcursor, hevents, hsplit]
      show scrollBack parseEvent _ _ _ requests = _
      refine hnext.trans (congrArg some ?_)
      rw [← List.append_assoc, ← List.filterMap_append, ← List.reverse_append, List.append_assoc,
        List.singleton_append]
    · obtain ⟨hm, he⟩ := queryEventPage_last hlast
      exact scrollBack_last hm he shown (request :: requests)

/-- **The timeline is whole.** A subscriber that scrolls back to the beginning shows every event
that was stored when it subscribed, but the heartbeats, exactly once and in chronological
order, whatever limits it asks for and whatever is stored meanwhile. -/
theorem timeline_scrolled_back (parseEvent : TimelineRow → Option ε) (stored : StoredEvents)
    (requests : List (StoredEvents × Option Int))
    (hlater : ∀ request ∈ requests, request.1.Extends stored)
    (henough : stored.rows.length ≤ requests.length) :
    ∃ visited, ExactListing stored historyFilter none visited ∧
      showTimeline parseEvent stored requests =
        some (visited.reverse.filterMap parseEvent) := by
  refine ⟨_, orderedEvents_exact stored historyFilter none, ?_⟩
  have hshort := length_orderedEvents_le stored historyFilter
  have hsame : orderedEvents stored historyFilter none = orderedEvents stored historyFilter none :=
    rfl
  have hlimit : 1 ≤ DEFAULT_REPLAY_LIMIT := by decide
  have hall : scrollBack parseEvent ((getReplay parseEvent stored).events ++ []) _ _ requests = _ :=
    scrollBack_page requests [] hlater hsame rfl hlimit (by omega)
  show scrollBack parseEvent (getReplay parseEvent stored).events _ _ requests = _
  rw [← List.append_nil (getReplay parseEvent stored).events]
  exact hall.trans (congrArg some (List.append_nil _))

/-- The events of `tiedEvents`, and one stored after them. -/
def laterEvents : StoredEvents where
  rows := { id := "tool:c", type := "tool_call", messageId := none, createdAt := 10,
            timelineSequence := 4 } :: tiedEvents.rows
  ids := by decide
  sequences := by decide

theorem laterEvents_extends : laterEvents.Extends tiedEvents where
  kept := fun row hrow => List.mem_cons_of_mem _ hrow
  newer := by
    intro row hrow hnew old hold
    have hlast : ∀ old ∈ tiedEvents.rows, old.bySequence < (laterEvents.rows[0]).bySequence := by
      intro old hold
      have hcases : ∀ old ∈ tiedEvents.rows, old.createdAt < 10 ∨
          old.createdAt = 10 ∧ old.timelineSequence < 4 := by decide
      exact bySequence_lt_bySequence.mpr (hcases old hold)
    rcases List.mem_cons.mp hrow with rfl | hmem
    · exact hlast old hold
    · exact absurd hmem hnew

theorem timeline_scrolled_back_growing :
    ∃ visited, ExactListing tiedEvents historyFilter none visited ∧
      showTimeline (fun row => some row.id) tiedEvents
          [(laterEvents, some 1), (laterEvents, none), (laterEvents, some 900)] =
        some (visited.reverse.filterMap fun row => some row.id) :=
  timeline_scrolled_back _ tiedEvents _
    (by
      intro request hrequest
      have hstore : request.1 = laterEvents := by
        rcases List.mem_cons.mp hrequest with rfl | hrequest
        · rfl
        · rcases List.mem_cons.mp hrequest with rfl | hrequest
          · rfl
          · rw [List.mem_singleton.mp hrequest]
      rw [hstore]
      exact laterEvents_extends)
    (by decide)

end BackgroundAgents.Session

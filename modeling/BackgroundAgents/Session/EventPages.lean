import BackgroundAgents.Lib.Keyset
import BackgroundAgents.Session.Types
import Mathlib.Data.Prod.Lex
import Mathlib.Data.String.Basic

/-!
# Pages of the timeline

`EventRepository.queryEventPage` and what a client sees that follows
`nextCursor` from page to page. A row is kept with the columns the listing reads,
identifiers and types as the stored texts.

A page lists by `created_at`, newest first, and breaks ties by
`timeline_sequence`, except for the page of an id-only cursor, which breaks them
by `id`. The cursor it returns carries the sequence all the same, so the pages
after the first are listed by sequence whatever the first one was.
`follow` is the concatenation of the pages. `timeline_paging_exact` says when it
is the listing the starting cursor asks for: always, unless that cursor is
id-only and ids and sequences disagree on the ties met at the end of the first
page (`TiesAgree`).
-/

namespace BackgroundAgents.Session

open BackgroundAgents.Keyset

/-- A row of `events`, as it is listed. -/
structure TimelineRow where
  id : String
  type : String
  messageId : Option String
  createdAt : Millis
  timelineSequence : Nat
  deriving DecidableEq, Repr

/-- The stored events: `id` is the primary key and `timeline_sequence` is unique. -/
structure StoredEvents where
  rows : List TimelineRow
  ids : (rows.map TimelineRow.id).Nodup
  sequences : (rows.map TimelineRow.timelineSequence).Nodup

/-! ## Cursors -/

/-- `EventTimelineCursor` -/
structure EventTimelineCursor where
  createdAt : Millis
  id : String
  sequence : Option Nat := none
  deriving DecidableEq, Repr

/-- `EventListCursor` -/
inductive EventListCursor where
  | timeline (cursor : EventTimelineCursor)
  | legacy (createdAt : Millis)
  deriving DecidableEq, Repr

/-- `timeline_sequence` is `NOT NULL`, so a row's cursor always carries it. -/
def eventTimelineCursorFromRow (row : TimelineRow) : EventTimelineCursor where
  createdAt := row.createdAt
  id := row.id
  sequence := some row.timelineSequence

/-! ## `queryEventPage` -/

/-- The filters of `QueryEventPageOptions`. An empty text filters nothing. -/
structure EventFilter where
  type : Option String := none
  messageId : Option String := none
  excludeTypes : List String := []
  deriving DecidableEq, Repr

def EventFilter.keeps (f : EventFilter) (row : TimelineRow) : Bool :=
  (match f.type with
    | none => true
    | some type => type.isEmpty || row.type = type) &&
  (match f.messageId with
    | none => true
    | some messageId => messageId.isEmpty || row.messageId = some messageId) &&
  !f.excludeTypes.contains row.type

/-- The cursor's condition, as the query has it. -/
def EventListCursor.admits (row : TimelineRow) : EventListCursor → Bool
  | .timeline ⟨createdAt, id, none⟩ =>
    row.createdAt < createdAt || (row.createdAt = createdAt && row.id < id)
  | .timeline ⟨createdAt, _, some sequence⟩ =>
    row.createdAt < createdAt ||
      (row.createdAt = createdAt && row.timelineSequence < sequence)
  | .legacy createdAt => row.createdAt < createdAt

/-- `ORDER BY created_at DESC, timeline_sequence DESC` -/
def TimelineRow.bySequence (row : TimelineRow) : Millis ×ₗ Nat :=
  toLex (row.createdAt, row.timelineSequence)

/-- `ORDER BY created_at DESC, id DESC` -/
def TimelineRow.byId (row : TimelineRow) : Millis ×ₗ String :=
  toLex (row.createdAt, row.id)

/-- Whether the tie-breaker of a page is `id`. -/
def breaksTiesById : Option EventListCursor → Bool
  | some (.timeline cursor) => cursor.sequence.isNone
  | _ => false

/-- The rows a page is taken from: the `WHERE` clause. -/
def eligible (events : StoredEvents) (f : EventFilter) (cursor : Option EventListCursor) :
    List TimelineRow :=
  events.rows.filter fun row => f.keeps row && cursor.all (EventListCursor.admits row)

/-- The query without its `LIMIT`. -/
def orderedEvents (events : StoredEvents) (f : EventFilter) (cursor : Option EventListCursor) :
    List TimelineRow :=
  if breaksTiesById cursor then newestFirst TimelineRow.byId (eligible events f cursor)
  else newestFirst TimelineRow.bySequence (eligible events f cursor)

structure EventPage where
  events : List TimelineRow
  hasMore : Bool
  nextCursor : Option EventTimelineCursor
  deriving DecidableEq, Repr

def queryEventPage (stored : StoredEvents) (f : EventFilter) (cursor : Option EventListCursor)
    (limit : Nat) : EventPage :=
  let rows := (orderedEvents stored f cursor).take (limit + 1)
  let hasMore := decide (limit < rows.length)
  let events := if hasMore then rows.take limit else rows
  { events := events
    hasMore := hasMore
    nextCursor := events.getLast?.map eventTimelineCursorFromRow }

/-- What a client collects that follows `nextCursor` while `hasMore`, page after page,
each of the next of the sizes; `none` when there are more pages than sizes. -/
def follow (stored : StoredEvents) (f : EventFilter) (cursor : Option EventListCursor) :
    List Nat → Option (List TimelineRow)
  | [] => none
  | limit :: limits =>
    let page := queryEventPage stored f cursor limit
    if page.hasMore then
      (follow stored f (page.nextCursor.map .timeline) limits).map (page.events ++ ·)
    else some page.events

/-! ## The listing a cursor asks for -/

/-- `row` is strictly older than the cursor, in the order of the cursor's kind. -/
def OlderThan (row : TimelineRow) : Option EventListCursor → Prop
  | none => True
  | some (.legacy createdAt) => row.createdAt < createdAt
  | some (.timeline ⟨createdAt, _, some sequence⟩) =>
    row.bySequence < toLex (createdAt, sequence)
  | some (.timeline ⟨createdAt, id, none⟩) => row.byId < toLex (createdAt, id)

/-- `newer` comes before `older` in the listing of a cursor of that kind. -/
def ListedBefore (cursor : Option EventListCursor) (newer older : TimelineRow) : Prop :=
  if breaksTiesById cursor then older.byId < newer.byId
  else older.bySequence < newer.bySequence

/-- `visited` is every kept event strictly older than the cursor, exactly once and in
the listing's order. -/
structure ExactListing (stored : StoredEvents) (f : EventFilter) (cursor : Option EventListCursor)
    (visited : List TimelineRow) : Prop where
  ordered : visited.Pairwise (ListedBefore cursor)
  complete : ∀ row, row ∈ visited ↔
    row ∈ stored.rows ∧ f.keeps row = true ∧ OlderThan row cursor

/-- After a page listed by id that is not the last one, ids and sequences order alike
the kept events that tie on `created_at`: those tied with the page's last event
against it, and those after it among themselves. -/
def TiesAgree (stored : StoredEvents) (f : EventFilter) (cursor : Option EventListCursor)
    (limit : Nat) : Prop :=
  breaksTiesById cursor = true → ∀ front last rest,
    orderedEvents stored f cursor = front ++ last :: rest → front.length + 1 = limit →
    rest ≠ [] →
    (∀ row ∈ stored.rows, f.keeps row = true → row.createdAt = last.createdAt →
      (row.timelineSequence < last.timelineSequence ↔ row.id < last.id)) ∧
    ∀ a ∈ rest, ∀ b ∈ rest, a.createdAt = b.createdAt →
      (a.timelineSequence < b.timelineSequence ↔ a.id < b.id)

/-! ## One page -/

theorem bySequence_lt {a : TimelineRow} {createdAt : Millis} {sequence : Nat} :
    a.bySequence < toLex (createdAt, sequence) ↔
      a.createdAt < createdAt ∨ a.createdAt = createdAt ∧ a.timelineSequence < sequence :=
  Prod.Lex.toLex_lt_toLex

theorem byId_lt {a : TimelineRow} {createdAt : Millis} {id : String} :
    a.byId < toLex (createdAt, id) ↔
      a.createdAt < createdAt ∨ a.createdAt = createdAt ∧ a.id < id :=
  Prod.Lex.toLex_lt_toLex

theorem bySequence_lt_bySequence {a b : TimelineRow} :
    a.bySequence < b.bySequence ↔
      a.createdAt < b.createdAt ∨
        a.createdAt = b.createdAt ∧ a.timelineSequence < b.timelineSequence :=
  bySequence_lt

theorem byId_lt_byId {a b : TimelineRow} :
    a.byId < b.byId ↔ a.createdAt < b.createdAt ∨ a.createdAt = b.createdAt ∧ a.id < b.id :=
  byId_lt

variable {cursor : Option EventListCursor}

variable {row : TimelineRow}

/-- The query's condition is the order of the cursor's kind. -/
theorem admits_iff :
    cursor.all (EventListCursor.admits row) = true ↔ OlderThan row cursor := by
  match cursor with
  | none => simp [OlderThan]
  | some (.legacy createdAt) => simp [EventListCursor.admits, OlderThan]
  | some (.timeline ⟨createdAt, id, none⟩) =>
    simp [EventListCursor.admits, OlderThan, byId_lt]
  | some (.timeline ⟨createdAt, id, some sequence⟩) =>
    simp [EventListCursor.admits, OlderThan, bySequence_lt]

variable {stored : StoredEvents} {f : EventFilter}

theorem mem_eligible :
    row ∈ eligible stored f cursor ↔
      row ∈ stored.rows ∧ f.keeps row = true ∧ OlderThan row cursor := by
  rw [eligible, List.mem_filter, Bool.and_eq_true, admits_iff]

theorem mem_orderedEvents :
    row ∈ orderedEvents stored f cursor ↔
      row ∈ stored.rows ∧ f.keeps row = true ∧ OlderThan row cursor := by
  unfold orderedEvents
  split <;> rw [mem_newestFirst, mem_eligible]

theorem StoredEvents.nodup_bySequence (stored : StoredEvents) :
    (stored.rows.map TimelineRow.bySequence).Nodup := by
  refine List.Nodup.of_map (fun k => (ofLex k).2) ?_
  rw [List.map_map]
  exact stored.sequences

theorem StoredEvents.nodup_byId (stored : StoredEvents) :
    (stored.rows.map TimelineRow.byId).Nodup := by
  refine List.Nodup.of_map (fun k => (ofLex k).2) ?_
  rw [List.map_map]
  exact stored.ids

theorem eligible_sublist (stored : StoredEvents) (f : EventFilter)
    (cursor : Option EventListCursor) : (eligible stored f cursor).Sublist stored.rows :=
  List.filter_sublist

/-- The listing of a cursor is exact. -/
theorem orderedEvents_exact (stored : StoredEvents) (f : EventFilter)
    (cursor : Option EventListCursor) :
    ExactListing stored f cursor (orderedEvents stored f cursor) := by
  refine ⟨?_, fun row => mem_orderedEvents⟩
  have hsub := eligible_sublist stored f cursor
  unfold orderedEvents ListedBefore
  split
  · exact newestFirst_descending ((hsub.map _).nodup stored.nodup_byId)
  · exact newestFirst_descending ((hsub.map _).nodup stored.nodup_bySequence)

theorem ListedBefore.of_id (h : breaksTiesById cursor = true) :
    ListedBefore cursor = fun newer older => older.byId < newer.byId := by
  funext newer older
  exact if_pos h

theorem ListedBefore.of_sequence (h : breaksTiesById cursor = false) :
    ListedBefore cursor = fun newer older => older.bySequence < newer.bySequence := by
  funext newer older
  exact if_neg (by simp [h])

/-- There is one exact listing. -/
theorem ExactListing.eq {l₁ l₂ : List TimelineRow} (h₁ : ExactListing stored f cursor l₁)
    (h₂ : ExactListing stored f cursor l₂) : l₁ = l₂ := by
  have hmem : ∀ row, row ∈ l₁ ↔ row ∈ l₂ := fun row => (h₁.complete row).trans (h₂.complete row).symm
  have ho₁ := h₁.ordered
  have ho₂ := h₂.ordered
  cases hid : breaksTiesById cursor with
  | true =>
    rw [ListedBefore.of_id hid] at ho₁ ho₂
    exact Descending.ext (show Descending TimelineRow.byId l₁ from ho₁) ho₂ hmem
  | false =>
    rw [ListedBefore.of_sequence hid] at ho₁ ho₂
    exact Descending.ext (show Descending TimelineRow.bySequence l₁ from ho₁) ho₂ hmem

/-- A page that is the last one holds all that is left. -/
theorem queryEventPage_last {limit : Nat} (h : (orderedEvents stored f cursor).length ≤ limit) :
    (queryEventPage stored f cursor limit).hasMore = false ∧
      (queryEventPage stored f cursor limit).events = orderedEvents stored f cursor := by
  have htake : (orderedEvents stored f cursor).take (limit + 1) = orderedEvents stored f cursor :=
    List.take_of_length_le (by omega)
  have hlen : ¬ limit < (orderedEvents stored f cursor).length := by omega
  simp [queryEventPage, htake, hlen]

variable {front rest : List TimelineRow}

variable {last : TimelineRow}

/-- A page that is not the last one ends with a row, whose cursor it returns. -/
theorem queryEventPage_more {limit : Nat}
    (h : orderedEvents stored f cursor = front ++ last :: rest) (hlen : front.length + 1 = limit)
    (hrest : rest ≠ []) :
    (queryEventPage stored f cursor limit).hasMore = true ∧
      (queryEventPage stored f cursor limit).events = front ++ [last] ∧
      (queryEventPage stored f cursor limit).nextCursor =
        some (eventTimelineCursorFromRow last) := by
  have hpos : 0 < rest.length := List.length_pos_iff.mpr hrest
  have hlong : limit < ((front ++ last :: rest).take (limit + 1)).length := by
    rw [List.length_take, List.length_append, List.length_cons]
    omega
  have htake : (front ++ last :: rest).take limit = front ++ [last] := by
    rw [← hlen, List.take_append, List.take_of_length_le (by omega)]
    simp
  have hevents : (queryEventPage stored f cursor limit).events = front ++ [last] := by
    simp only [queryEventPage, h, decide_eq_true hlong, if_true, List.take_take]
    rw [Nat.min_eq_left (Nat.le_succ limit), htake]
  refine ⟨by simpa only [queryEventPage, h] using decide_eq_true hlong, hevents, ?_⟩
  have hnext : (queryEventPage stored f cursor limit).nextCursor =
      (queryEventPage stored f cursor limit).events.getLast?.map eventTimelineCursorFromRow := rfl
  rw [hnext, hevents, List.getLast?_concat]
  rfl

/-- A listing longer than a page, cut after the page. -/
theorem split_page {rows : List TimelineRow} {limit : Nat} (hpos : 1 ≤ limit)
    (h : limit < rows.length) :
    ∃ front last rest, rows = front ++ last :: rest ∧ front.length + 1 = limit ∧ rest ≠ [] := by
  have hlast : limit - 1 < rows.length := by omega
  refine ⟨rows.take (limit - 1), rows[limit - 1], rows.drop limit, ?_, ?_, ?_⟩
  · have hdrop : rows.drop (limit - 1) = rows[limit - 1] :: rows.drop limit := by
      rw [List.drop_eq_getElem_cons hlast, Nat.sub_add_cancel hpos]
    rw [← hdrop, List.take_append_drop]
  · rw [List.length_take]
    omega
  · intro hnil
    have := List.drop_eq_nil_iff.mp hnil
    omega

/-! ## Following the cursor -/

/-- The cursor a page returns whose last event is `last`. -/
abbrev cursorAfter (last : TimelineRow) : Option EventListCursor :=
  some (.timeline (eventTimelineCursorFromRow last))

theorem orderedEvents_descending (stored : StoredEvents) (f : EventFilter)
    (h : breaksTiesById cursor = false) :
    Descending TimelineRow.bySequence (orderedEvents stored f cursor) := by
  have ho := (orderedEvents_exact stored f cursor).ordered
  rwa [ListedBefore.of_sequence h] at ho

theorem orderedEvents_descending_byId (stored : StoredEvents) (f : EventFilter)
    (h : breaksTiesById cursor = true) :
    Descending TimelineRow.byId (orderedEvents stored f cursor) := by
  have ho := (orderedEvents_exact stored f cursor).ordered
  rwa [ListedBefore.of_id h] at ho

variable {last row : TimelineRow}

theorem mem_orderedEvents_after :
    row ∈ orderedEvents stored f (cursorAfter last) ↔
      row ∈ stored.rows ∧ f.keeps row = true ∧ row.bySequence < last.bySequence :=
  mem_orderedEvents

/-- What is older than an older event is older than the cursor. -/
theorem OlderThan.of_bySequence (hkind : breaksTiesById cursor = false)
    (hlast : OlderThan last cursor) (h : row.bySequence < last.bySequence) :
    OlderThan row cursor := by
  match cursor with
  | none => trivial
  | some (.legacy createdAt) =>
    have hle : row.createdAt ≤ last.createdAt := by
      rcases bySequence_lt_bySequence.mp h with hlt | ⟨heq, -⟩
      · exact Nat.le_of_lt hlt
      · exact Nat.le_of_eq heq
    exact Nat.lt_of_le_of_lt hle hlast
  | some (.timeline ⟨createdAt, id, some sequence⟩) => exact lt_trans h hlast
  | some (.timeline ⟨createdAt, id, none⟩) => simp [breaksTiesById] at hkind

theorem OlderThan.of_byId (hkind : breaksTiesById cursor = true) (hlast : OlderThan last cursor)
    (h : row.byId < last.byId) : OlderThan row cursor := by
  match cursor with
  | none => simp [breaksTiesById] at hkind
  | some (.legacy createdAt) => simp [breaksTiesById] at hkind
  | some (.timeline ⟨createdAt, id, some sequence⟩) => simp [breaksTiesById] at hkind
  | some (.timeline ⟨createdAt, id, none⟩) => exact lt_trans h hlast

/-- The events listed after `last`, for the page it ends. -/
theorem mem_rest (h : orderedEvents stored f cursor = front ++ last :: rest) :
    row ∈ rest ↔ row ∈ stored.rows ∧ f.keeps row = true ∧
      if breaksTiesById cursor then row.byId < last.byId
      else row.bySequence < last.bySequence := by
  have hmem : last ∈ orderedEvents stored f cursor := by
    rw [h]
    simp
  have hlast : OlderThan last cursor := (mem_orderedEvents.mp hmem).2.2
  cases hkind : breaksTiesById cursor with
  | true =>
    have hd := orderedEvents_descending_byId stored f hkind
    rw [h] at hd
    rw [hd.mem_after, ← h, mem_orderedEvents, if_pos rfl]
    constructor
    · rintro ⟨⟨hs, hk, -⟩, hlt⟩
      exact ⟨hs, hk, hlt⟩
    · rintro ⟨hs, hk, hlt⟩
      exact ⟨⟨hs, hk, hlast.of_byId hkind hlt⟩, hlt⟩
  | false =>
    have hd := orderedEvents_descending stored f hkind
    rw [h] at hd
    rw [hd.mem_after, ← h, mem_orderedEvents, if_neg (by simp)]
    constructor
    · rintro ⟨⟨hs, hk, -⟩, hlt⟩
      exact ⟨hs, hk, hlt⟩
    · rintro ⟨hs, hk, hlt⟩
      exact ⟨⟨hs, hk, hlast.of_bySequence hkind hlt⟩, hlt⟩

/-- A page listed by sequence leaves its cursor the rest of the listing. -/
theorem orderedEvents_after (hkind : breaksTiesById cursor = false)
    (h : orderedEvents stored f cursor = front ++ last :: rest) :
    orderedEvents stored f (cursorAfter last) = rest := by
  have hd := orderedEvents_descending stored f hkind
  rw [h] at hd
  have hrest : Descending TimelineRow.bySequence rest :=
    (List.pairwise_cons.mp (List.pairwise_append.mp hd).2.1).2
  refine (orderedEvents_descending _ _ rfl).ext hrest fun row => ?_
  rw [mem_orderedEvents_after, mem_rest h, hkind]
  simp

/-- Following from a cursor listed by sequence collects its whole listing. -/
theorem follow_bySequence :
    ∀ (sizes : List Nat) {cursor : Option EventListCursor}, (∀ n ∈ sizes, 1 ≤ n) →
      sizes ≠ [] → (orderedEvents stored f cursor).length ≤ sizes.length →
      breaksTiesById cursor = false →
      follow stored f cursor sizes = some (orderedEvents stored f cursor)
  | [], _, _, hne, _, _ => absurd rfl hne
  | limit :: limits, cursor, hpos, _, hlen, hkind => by
    rcases Nat.lt_or_ge limit (orderedEvents stored f cursor).length with hmore | hlast
    · have hlimit : 1 ≤ limit := hpos limit (by simp)
      obtain ⟨front, last, rest, hsplit, hfront, hrest⟩ := split_page hlimit hmore
      obtain ⟨hm, he, hn⟩ := queryEventPage_more hsplit hfront hrest
      have hafter := orderedEvents_after hkind hsplit
      have hshort : rest.length ≤ limits.length := by
        rw [hsplit, List.length_append, List.length_cons, List.length_cons] at hlen
        omega
      have hne : limits ≠ [] := by
        rintro rfl
        exact hrest (List.length_eq_zero_iff.mp (Nat.le_zero.mp hshort))
      have hih : follow stored f (cursorAfter last) limits =
          some (orderedEvents stored f (cursorAfter last)) :=
        follow_bySequence limits (fun n hn => hpos n (by simp [hn])) hne
          (by rw [hafter]; exact hshort) rfl
      rw [follow, if_pos hm, he, hn, Option.map_some, hih, hafter, Option.map_some, hsplit,
        List.append_assoc, List.singleton_append]
    · obtain ⟨hm, he⟩ := queryEventPage_last hlast
      rw [follow, if_neg (by simp [hm]), he]

/-- Ids and sequences that agree on the ties leave the cursor the rest of the listing,
and only they do. -/
theorem orderedEvents_after_byId (hkind : breaksTiesById cursor = true)
    (h : orderedEvents stored f cursor = front ++ last :: rest) :
    orderedEvents stored f (cursorAfter last) = rest ↔
      (∀ row ∈ stored.rows, f.keeps row = true → row.createdAt = last.createdAt →
        (row.timelineSequence < last.timelineSequence ↔ row.id < last.id)) ∧
      ∀ a ∈ rest, ∀ b ∈ rest, a.createdAt = b.createdAt →
        (a.timelineSequence < b.timelineSequence ↔ a.id < b.id) := by
  have hd := orderedEvents_descending_byId stored f hkind
  rw [h] at hd
  have hrest : Descending TimelineRow.byId rest :=
    (List.pairwise_cons.mp (List.pairwise_append.mp hd).2.1).2
  have hafter : Descending TimelineRow.bySequence (orderedEvents stored f (cursorAfter last)) :=
    orderedEvents_descending _ _ rfl
  have hmem : ∀ row, row ∈ rest ↔
      row ∈ stored.rows ∧ f.keeps row = true ∧ row.byId < last.byId := by
    intro row
    rw [mem_rest h, if_pos hkind]
  -- on a tie both orders compare what breaks it
  have htie : ∀ a b : TimelineRow, a.createdAt = b.createdAt →
      (a.bySequence < b.bySequence ↔ a.timelineSequence < b.timelineSequence) ∧
      (a.byId < b.byId ↔ a.id < b.id) := by
    intro a b hab
    rw [bySequence_lt_bySequence, byId_lt_byId, hab]
    simp
  constructor
  · intro heq
    refine ⟨fun row hrow hkeep htied => ?_, fun a ha b hb htied => ?_⟩
    · rw [← (htie row last htied).1, ← (htie row last htied).2]
      have hiff : row ∈ orderedEvents stored f (cursorAfter last) ↔ row ∈ rest := by rw [heq]
      rw [mem_orderedEvents_after, hmem] at hiff
      simpa [hrow, hkeep] using hiff
    · rw [← (htie a b htied).1, ← (htie a b htied).2]
      rw [heq] at hafter
      exact hafter.lt_iff hrest ha hb
  · rintro ⟨hlast, hrows⟩
    have hbySequence : Descending TimelineRow.bySequence rest := by
      refine List.Pairwise.imp_of_mem (fun {a b} ha hb hlt => ?_) hrest
      rcases byId_lt_byId.mp hlt with hc | ⟨hc, hid⟩
      · exact bySequence_lt_bySequence.mpr (.inl hc)
      · exact bySequence_lt_bySequence.mpr (.inr ⟨hc, (hrows b hb a ha hc).mpr hid⟩)
    refine hafter.ext hbySequence fun row => ?_
    rw [mem_orderedEvents_after, hmem]
    refine and_congr_right fun hrow => and_congr_right fun hkeep => ?_
    rcases Nat.lt_trichotomy row.createdAt last.createdAt with hc | hc | hc
    · exact iff_of_true (bySequence_lt_bySequence.mpr (.inl hc)) (byId_lt_byId.mpr (.inl hc))
    · rw [(htie row last hc).1, (htie row last hc).2]
      exact hlast row hrow hkeep hc
    · refine iff_of_false (fun hlt => ?_) fun hlt => ?_
      · rcases bySequence_lt_bySequence.mp hlt with hlt | ⟨heq, -⟩
        · exact Nat.lt_asymm hc hlt
        · exact Nat.ne_of_gt hc heq
      · rcases byId_lt_byId.mp hlt with hlt | ⟨heq, -⟩
        · exact Nat.lt_asymm hc hlt
        · exact Nat.ne_of_gt hc heq

/-- **Paging is exact** when, and only when, ties agree where an id-only cursor's first
page ends. -/
theorem timeline_paging_exact (stored : StoredEvents) (f : EventFilter)
    (cursor : Option EventListCursor) {limit : Nat} {limits : List Nat}
    (hpos : ∀ n ∈ limit :: limits, 1 ≤ n) (henough : stored.rows.length ≤ limits.length) :
    (∃ visited, follow stored f cursor (limit :: limits) = some visited ∧
      ExactListing stored f cursor visited) ↔ TiesAgree stored f cursor limit := by
  have hexact := orderedEvents_exact stored f cursor
  have hbound : ∀ c, (orderedEvents stored f c).length ≤ limits.length := by
    intro c
    refine Nat.le_trans ?_ henough
    unfold orderedEvents
    split <;> rw [length_newestFirst] <;> exact (eligible_sublist stored f c).length_le
  cases hkind : breaksTiesById cursor with
  | false =>
    refine iff_of_true ⟨_, ?_, hexact⟩ fun hid => absurd hid (by simp [hkind])
    exact follow_bySequence (limit :: limits) hpos (by simp)
      (Nat.le_trans (hbound cursor) (Nat.le_succ _)) hkind
  | true =>
    rcases Nat.lt_or_ge limit (orderedEvents stored f cursor).length with hmore | hlast
    · obtain ⟨front, last, rest, hsplit, hfront, hrest⟩ :=
        split_page (hpos limit (by simp)) hmore
      obtain ⟨hm, he, hn⟩ := queryEventPage_more hsplit hfront hrest
      have hne : limits ≠ [] := by
        rintro rfl
        have := hbound cursor
        rw [hsplit] at this
        simp at this
      have hfollow : follow stored f cursor (limit :: limits) =
          some (front ++ [last] ++ orderedEvents stored f (cursorAfter last)) := by
        rw [follow, if_pos hm, he, hn, Option.map_some,
          follow_bySequence limits (fun n hn => hpos n (by simp [hn])) hne (hbound _) rfl,
          Option.map_some]
      have hagree : TiesAgree stored f cursor limit ↔
          orderedEvents stored f (cursorAfter last) = rest := by
        rw [orderedEvents_after_byId hkind hsplit]
        constructor
        · intro hties
          exact hties hkind front last rest hsplit hfront hrest
        · intro hties _ front' last' rest' hsplit' hfront' _
          have hcut := List.append_inj (hsplit.symm.trans hsplit') (by omega)
          obtain ⟨rfl, hcut⟩ := hcut
          cases hcut
          exact hties
      rw [hagree, hfollow]
      constructor
      · rintro ⟨visited, hv, hvisited⟩
        cases hv
        have heq := hvisited.eq hexact
        rw [hsplit, List.append_assoc, List.singleton_append] at heq
        exact (List.cons.inj (List.append_cancel_left heq)).2
      · intro heq
        refine ⟨_, rfl, ?_⟩
        rw [heq, List.append_assoc, List.singleton_append, ← hsplit]
        exact hexact
    · obtain ⟨hm, he⟩ := queryEventPage_last hlast
      have hfollow : follow stored f cursor (limit :: limits) =
          some (orderedEvents stored f cursor) := by
        rw [follow, if_neg (by simp [hm]), he]
      refine iff_of_true ⟨_, hfollow, hexact⟩ ?_
      intro _ front last rest hsplit hfront hrest
      have hlen : 0 < rest.length := List.length_pos_iff.mpr hrest
      rw [hsplit, List.length_append, List.length_cons] at hlast
      omega

/-- Two events of one millisecond whose ids and sequences disagree, and one before. -/
def tiedEvents : StoredEvents where
  rows :=
    [{ id := "step", type := "step_start", messageId := none, createdAt := 5, timelineSequence := 1 },
     { id := "tool:b", type := "tool_call", messageId := none, createdAt := 10, timelineSequence := 2 },
     { id := "tool:a", type := "tool_call", messageId := none, createdAt := 10, timelineSequence := 3 }]
  ids := by decide
  sequences := by decide

theorem timeline_paging_exact_tied :
    ∃ visited, follow tiedEvents {} none [1, 1, 1, 1] = some visited ∧
      ExactListing tiedEvents {} none visited :=
  (timeline_paging_exact tiedEvents {} none (by decide) (by decide)).mpr fun h => by cases h

/-- **An event skipped.** From an id-only cursor, one event a page: the first page ends
with the greater id, whose sequence is the smaller, and the other is never visited. -/
theorem idCursor_skips_tied :
    ¬ ∀ (stored : StoredEvents) (f : EventFilter) (cursor : Option EventListCursor)
      (limit pages : Nat), 1 ≤ limit → stored.rows.length ≤ pages →
        ∃ visited, follow stored f cursor (List.replicate (pages + 1) limit) = some visited ∧
          ExactListing stored f cursor visited := by
  intro h
  obtain ⟨visited, hfollow, hexact⟩ :=
    h tiedEvents {} (some (.timeline ⟨20, "tool:z", none⟩)) 1 3 (Nat.le_refl 1) (Nat.le_refl 3)
  have hrun : (follow tiedEvents {} (some (.timeline ⟨20, "tool:z", none⟩))
      (List.replicate 4 1)).map (·.map TimelineRow.id) = some ["tool:b", "step"] := by decide
  rw [hfollow, Option.map_some, Option.some.injEq] at hrun
  have hmissed : "tool:a" ∈ visited.map TimelineRow.id :=
    List.mem_map.mpr ⟨_, (hexact.complete (tiedEvents.rows[2])).mpr (by
      refine ⟨by simp, rfl, ?_⟩
      exact admits_iff.mp (by decide)), rfl⟩
  rw [hrun] at hmissed
  simp at hmissed

/-! ## History pages -/

/-- `getEventTimelinePage`: the same page, oldest first. -/
def getEventTimelinePage (stored : StoredEvents) (f : EventFilter)
    (cursor : Option EventListCursor) (limit : Nat) : EventPage :=
  let page := queryEventPage stored f cursor limit
  { page with events := page.events.reverse }

/-- What a client shows that puts every history page before what it has. -/
def followHistory (stored : StoredEvents) (f : EventFilter) (cursor : Option EventListCursor) :
    List Nat → Option (List TimelineRow)
  | [] => none
  | limit :: limits =>
    let page := getEventTimelinePage stored f cursor limit
    if page.hasMore then
      (followHistory stored f (page.nextCursor.map .timeline) limits).map (· ++ page.events)
    else some page.events

/-- History shows the listing in chronological order. -/
theorem followHistory_eq :
    ∀ (sizes : List Nat) (cursor : Option EventListCursor),
      followHistory stored f cursor sizes = (follow stored f cursor sizes).map List.reverse
  | [], _ => rfl
  | limit :: limits, cursor => by
    have hpage : getEventTimelinePage stored f cursor limit =
        { queryEventPage stored f cursor limit with
          events := (queryEventPage stored f cursor limit).events.reverse } := rfl
    rw [followHistory, follow, hpage]
    cases hm : (queryEventPage stored f cursor limit).hasMore with
    | false => simp
    | true =>
      simp only [if_true, followHistory_eq limits, Option.map_map]
      congr 1
      funext rest
      simp

end BackgroundAgents.Session

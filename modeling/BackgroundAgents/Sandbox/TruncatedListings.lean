import BackgroundAgents.Sandbox.GitListingLaws

/-!
# Listings that end early

Where a listing can end (`prefix_listing`), and what the parsers make of each end:
between two records they return the records before it; before the last path of a
record they raise; inside that path they take what there is of it for the path.
-/

namespace BackgroundAgents.Sandbox.GitListings

open Bytes (words splitMax)
open Utf8 (decode)

variable {field p q : List UInt8}

/-! ## Records that are cut short -/

/-- What there is of a terminated field is at most one field. -/
theorem splitFields_initial (h : 0 ∉ field) (hp : p <+: terminated field) :
    p = [] ∨ ∃ g, splitFields p = [g] ∧ g <+: field := by
  by_cases hne : p = []
  · exact .inl hne
  · refine .inr ?_
    rcases prefix_terminated hp with hp | rfl
    · exact ⟨p, splitFields_single hne (notMem_of_initial h hp), hp⟩
    · refine ⟨field, ?_, List.prefix_rfl⟩
      have hsplit := splitFields_terminated h []
      rwa [List.append_nil] at hsplit

/-- A header alone is no record. -/
theorem readRawChanges_one (field : List UInt8) (done : List ChangedPath)
    (data : List (Key × TrackedMetadata)) :
    ∃ e, readRawChanges [field] done data = .error e := by
  rw [readRawChanges]
  split
  next e _ => exact ⟨e, rfl⟩
  next header _ =>
    split
    · exact ⟨.malformedRawRenameRecord, rfl⟩
    · exact ⟨.malformedRawDiffRecord, rfl⟩

theorem readNumstat_short (h : (splitMax 0x09 2 field).length ≤ 2) (rest : List (List UInt8))
    (stats : List (Key × LineStats)) : ∃ e, readNumstat (field :: rest) stats = .error e := by
  rw [readNumstat]
  split
  next hsplit =>
    rw [hsplit] at h
    exact absurd h (Nat.not_succ_le_self 2)
  next => exact ⟨.malformedNumstatRecord, rfl⟩

namespace GitChange

variable (change : GitChange)

/-- A rename that has one path is no record. -/
theorem readRawChanges_two (h : change.paths.oldPath.isSome = true) (q : List UInt8)
    (done : List ChangedPath) (data : List (Key × TrackedMetadata)) :
    readRawChanges [change.header, q] done data = .error .malformedRawRenameRecord := by
  rw [readRawChanges, change.readHeader_header]
  dsimp only
  rw [if_pos (change.readBack_hasOldPath.trans h)]

theorem raw_cutShort (hne : p ≠ []) (hp : p <+: change.rawLeading) (done : List ChangedPath)
    (data : List (Key × TrackedMetadata)) :
    ∃ e, readRawChanges (splitFields p) done data = .error e := by
  have hheader : ∀ {p : List UInt8}, p ≠ [] → p <+: terminated change.header →
      ∃ e, readRawChanges (splitFields p) done data = .error e := by
    intro p hne hp
    obtain ⟨g, hg, _⟩ := (splitFields_initial change.header_noNul hp).resolve_left hne
    rw [hg]
    exact readRawChanges_one g done data
  unfold rawLeading at hp
  cases hold : change.paths.oldPath with
  | none =>
    rw [hold] at hp
    exact hheader hne hp
  | some oldPath =>
    rw [hold] at hp
    rcases prefix_in_append hp with hp | ⟨q, rfl, hq⟩
    · exact hheader hne hp
    · rw [splitFields_terminated change.header_noNul]
      rcases splitFields_initial oldPath.property.2 hq with rfl | ⟨g, hg, _⟩
      · exact readRawChanges_one change.header done data
      · rw [hg]
        exact ⟨_, change.readRawChanges_two (by rw [hold]; rfl) g done data⟩

/-- The columns alone are a record of two more paths. -/
theorem readNumstat_columns (rest : List (List UInt8)) (hrest : rest.length ≤ 1)
    (stats : List (Key × LineStats)) :
    readNumstat (change.columns :: rest) stats = .error .malformedRenameNumstatRecord := by
  obtain ⟨additions, deletions, hsplit, hstats⟩ := change.splitMax_columns []
  rw [List.append_nil] at hsplit
  rw [readNumstat, hsplit]
  dsimp only
  rw [hstats]
  dsimp only
  rw [if_neg (fun h => h rfl)]
  split
  next =>
    rw [List.length_cons, List.length_cons] at hrest
    omega
  next => rfl

/-- The columns end in their second tab. -/
theorem columns_tabs : ∃ front, change.columns = front ++ [0x09] ∧ front.count 0x09 = 1 := by
  have htab : ∀ n, (Bytes.decimal n).count 0x09 = 0 := fun n =>
    List.count_eq_zero.mpr fun hmem => absurd (Bytes.decimal_byte hmem).1 (by decide)
  unfold columns
  cases change.lines with
  | none => exact ⟨[0x2d, 0x09, 0x2d], rfl, by decide⟩
  | some lines =>
    obtain ⟨added, deleted⟩ := lines
    refine ⟨Bytes.decimal added.val ++ 0x09 :: Bytes.decimal deleted.val, ?_, ?_⟩
    · simp
    · rw [List.count_append, List.count_cons_self, htab, htab]

theorem readNumstat_inColumns (hp : p <+: change.columns) (stats : List (Key × LineStats)) :
    ∃ e, readNumstat [p] stats = .error e := by
  obtain ⟨front, hcolumns, htabs⟩ := change.columns_tabs
  rw [hcolumns] at hp
  rcases List.prefix_concat_iff.mp hp with he | hp
  · rw [he, ← hcolumns]
    exact ⟨_, change.readNumstat_columns [] (Nat.zero_le _) stats⟩
  · refine readNumstat_short ?_ [] stats
    have hle := Bytes.length_splitMax_le 0x09 2 p
    have hcount := hp.sublist.count_le 0x09
    omega

theorem numstat_cutShort (hne : p ≠ []) (hp : p <+: change.numstatLeading)
    (stats : List (Key × LineStats)) : ∃ e, readNumstat (splitFields p) stats = .error e := by
  have hcolumns : ∀ {p : List UInt8}, p ≠ [] → p <+: terminated change.columns →
      ∃ e, readNumstat (splitFields p) stats = .error e := by
    intro p hne hp
    obtain ⟨g, hg, hinitial⟩ := (splitFields_initial change.columns_noNul hp).resolve_left hne
    rw [hg]
    exact change.readNumstat_inColumns hinitial stats
  unfold numstatLeading at hp
  cases hold : change.paths.oldPath with
  | none =>
    rw [hold] at hp
    exact hcolumns hne (hp.trans (List.prefix_append _ _))
  | some oldPath =>
    rw [hold] at hp
    rcases prefix_in_append hp with hp | ⟨q, rfl, hq⟩
    · exact hcolumns hne hp
    · rw [splitFields_terminated change.columns_noNul]
      rcases splitFields_initial oldPath.property.2 hq with rfl | ⟨g, hg, _⟩
      · exact ⟨_, change.readNumstat_columns [] (Nat.zero_le _) stats⟩
      · rw [hg]
        exact ⟨_, change.readNumstat_columns [g] (Nat.le_refl _) stats⟩

/-! ## Records that are cut in their last path -/

/-- The NUL after the last path makes no difference. -/
theorem raw_cutInPath (path : Path) :
    splitFields (change.rawLeading ++ path.val) = splitFields (change.withPath path).rawRecord := by
  have hrecord := (change.withPath path).splitFields_rawRecord []
  rw [List.append_nil] at hrecord
  rw [change.splitFields_rawLeading, splitFields_single path.property.1 path.property.2, hrecord]
  unfold rawFields withPath header
  cases change.paths with
  | ordinary letter known path => rfl
  | moved letter known oldPath path => rfl

theorem numstat_cutInPath (path : Path) :
    splitFields (change.numstatLeading ++ path.val) =
      splitFields (change.withPath path).numstatRecord := by
  have hrecord := (change.withPath path).splitFields_numstatRecord []
  rw [List.append_nil] at hrecord
  rw [hrecord]
  unfold numstatLeading numstatFields withPath columns
  cases hpaths : change.paths with
  | ordinary letter known last =>
    have hnoNul : 0 ∉ change.columns ++ path.val := by
      rw [List.mem_append, not_or]
      exact ⟨change.columns_noNul, path.property.2⟩
    exact splitFields_single (List.append_ne_nil_of_right_ne_nil _ path.property.1) hnoNul
  | moved letter known oldPath last =>
    show splitFields (terminated change.columns ++ terminated oldPath.val ++ path.val) = _
    rw [List.append_assoc, splitFields_terminated change.columns_noNul,
      splitFields_terminated oldPath.property.2,
      splitFields_single path.property.1 path.property.2]
    rfl

end GitChange

/-! ## Where a listing can end -/

/-- A record, given what stands in it before the last path. -/
def recordOf (leading : GitChange → List UInt8) (change : GitChange) : List UInt8 :=
  leading change ++ terminated change.paths.path.val

inductive Ends (leading : GitChange → List UInt8) (changes : List GitChange) :
    List UInt8 → Prop where
  | between (before after : List GitChange) (h : changes = before ++ after) :
      Ends leading changes (before.flatMap (recordOf leading))
  | short (before after : List GitChange) (change : GitChange) (p : List UInt8)
      (h : changes = before ++ change :: after) (hne : p ≠ []) (hp : p <+: leading change) :
      Ends leading changes (before.flatMap (recordOf leading) ++ p)
  | inPath (before after : List GitChange) (change : GitChange) (path : Path)
      (h : changes = before ++ change :: after) (hp : path.val <+: change.paths.path.val) :
      Ends leading changes
        (before.flatMap (recordOf leading) ++ (leading change ++ path.val))

theorem Ends.cons {leading : GitChange → List UInt8} {changes : List GitChange} {t : List UInt8}
    (change : GitChange) (h : Ends leading changes t) :
    Ends leading (change :: changes) (recordOf leading change ++ t) := by
  cases h with
  | between before after h =>
    exact .between (change :: before) after (congrArg (change :: ·) h)
  | short before after c p h hne hp =>
    have hshort : Ends leading _ _ := .short (change :: before) after c p
      (congrArg (change :: ·) h) hne hp
    rwa [List.flatMap_cons, List.append_assoc] at hshort
  | inPath before after c path h hp =>
    have hpath : Ends leading _ _ := .inPath (change :: before) after c path
      (congrArg (change :: ·) h) hp
    rwa [List.flatMap_cons, List.append_assoc] at hpath

/-- Every prefix of a listing ends between two records, before the last path of one, or in it. -/
theorem prefix_listing (leading : GitChange → List UInt8) :
    ∀ (changes : List GitChange) (t : List UInt8), t <+: changes.flatMap (recordOf leading) →
      Ends leading changes t
  | [], t, ht => by
    rw [List.prefix_nil.mp ht]
    exact .between [] [] rfl
  | change :: changes, t, ht => by
    have hstart : ∀ {p : List UInt8}, p <+: leading change →
        Ends leading (change :: changes) p := by
      intro p hp
      by_cases hne : p = []
      · rw [hne]
        exact .between [] (change :: changes) rfl
      · exact .short [] changes change p rfl hne hp
    rw [List.flatMap_cons] at ht
    rcases prefix_in_append ht with ht | ⟨q, rfl, hq⟩
    · rcases prefix_in_append ht with ht | ⟨q, rfl, hq⟩
      · exact hstart ht
      · rcases prefix_terminated hq with hq | rfl
        · by_cases hne : q = []
          · rw [hne, List.append_nil]
            exact hstart List.prefix_rfl
          · exact .inPath [] changes change
              ⟨q, hne, notMem_of_initial change.paths.path.property.2 hq⟩ rfl hq
        · have hwhole : Ends leading _ _ := .between [change] changes rfl
          rwa [List.flatMap_cons, List.flatMap_nil, List.append_nil] at hwhole
    · exact (prefix_listing leading changes q hq).cons change

/-! ## The listings -/

/-- The two changes have the same paths. -/
def GitChange.SamePaths (c d : GitChange) : Prop :=
  c.paths.oldPath = d.paths.oldPath ∧ c.paths.path = d.paths.path

/-- Decoding keeps different paths apart. -/
theorem GitChange.key_eq {c d : GitChange} : c.key = d.key ↔ c.SamePaths d := by
  have hinjective : Function.Injective fun path : Path => decode path.val :=
    fun a b h => Subtype.ext (Utf8.decode_injective h)
  show (c.paths.oldPath.map _, _) = (d.paths.oldPath.map _, _) ↔ _
  rw [Prod.mk.injEq]
  constructor
  · intro h
    exact ⟨Option.map_injective hinjective h.1, hinjective h.2⟩
  · intro h
    rw [h.1, h.2]
    exact ⟨rfl, rfl⟩

theorem get?_own {β : Type} (data : GitChange → β) {before after : List GitChange}
    {change : GitChange} (h : ∀ c ∈ after, ¬ c.SamePaths change) :
    Dict.get? (Dict.ofList ((before ++ change :: after).map fun c => (c.key, data c))) change.key =
      some (data change) := by
  rw [List.map_append, List.map_cons]
  refine Dict.get?_ofList _ _ ?_
  rw [List.map_map, List.mem_map]
  intro hmem
  obtain ⟨c, hc, hkey⟩ := hmem
  exact h c hc (GitChange.key_eq.mp hkey)

theorem ofList_own {β : Type} (data : GitChange → β) {changes : List GitChange}
    (h : changes.Pairwise fun c d => ¬ c.SamePaths d) :
    Dict.ofList (changes.map fun c => (c.key, data c)) =
      changes.map fun c => (c.key, data c) := by
  refine Dict.ofList_of_nodup ?_
  rw [List.map_map, List.Nodup, List.pairwise_map]
  exact h.imp fun hne heq => hne (GitChange.key_eq.mp heq)

/-- Whatever the changes: both listings are read as the records that were written, under the
same keys, of which the last record with the same paths has the data. A listing that ends in a
record before its last path is an error, and one that ends in that path is the listing whose
last path is as long as what there is of it. -/
theorem listings_exact (changes : List GitChange) :
    parseRawChanges (encodeRaw changes) =
      .ok (changes.map (·.changedPath), Dict.ofList (changes.map fun c => (c.key, c.metadata))) ∧
    parseNumstat (encodeNumstat changes) =
      .ok (Dict.ofList (changes.map fun c => (c.key, c.lineStats))) ∧
    (∀ before change after, changes = before ++ change :: after →
      (∀ c ∈ after, ¬ c.SamePaths change) →
        Dict.get? (Dict.ofList (changes.map fun c => (c.key, c.metadata))) change.key =
          some change.metadata ∧
        Dict.get? (Dict.ofList (changes.map fun c => (c.key, c.lineStats))) change.key =
          some change.lineStats) ∧
    ((changes.Pairwise fun c d => ¬ c.SamePaths d) →
      Dict.ofList (changes.map fun c => (c.key, c.metadata)) =
        (changes.map fun c => (c.key, c.metadata)) ∧
      Dict.ofList (changes.map fun c => (c.key, c.lineStats)) =
        (changes.map fun c => (c.key, c.lineStats))) ∧
    (∀ before change after, changes = before ++ change :: after →
      (∀ p, p ≠ [] → p <+: change.rawLeading →
        ∃ e, parseRawChanges (encodeRaw before ++ p) = .error e) ∧
      (∀ p, p ≠ [] → p <+: change.numstatLeading →
        ∃ e, parseNumstat (encodeNumstat before ++ p) = .error e) ∧
      (∀ path : Path, path.val <+: change.paths.path.val →
        parseRawChanges (encodeRaw before ++ (change.rawLeading ++ path.val)) =
          parseRawChanges (encodeRaw (before ++ [change.withPath path])) ∧
        parseNumstat (encodeNumstat before ++ (change.numstatLeading ++ path.val)) =
          parseNumstat (encodeNumstat (before ++ [change.withPath path])))) ∧
    (∀ t, t <+: encodeRaw changes → Ends GitChange.rawLeading changes t) ∧
    (∀ t, t <+: encodeNumstat changes → Ends GitChange.numstatLeading changes t) := by
  refine ⟨parseRawChanges_encodeRaw changes, parseNumstat_encodeNumstat changes, ?_, ?_, ?_,
    prefix_listing _ changes, prefix_listing _ changes⟩
  · intro before change after h hlast
    rw [h]
    exact ⟨get?_own GitChange.metadata hlast, get?_own GitChange.lineStats hlast⟩
  · intro h
    exact ⟨ofList_own GitChange.metadata h, ofList_own GitChange.lineStats h⟩
  · intro before change after _
    refine ⟨?_, ?_, ?_⟩
    · intro p hne hp
      obtain ⟨e, he⟩ := change.raw_cutShort hne hp ([] ++ before.map (·.changedPath))
        (Dict.assign [] (before.map fun c => (c.key, c.metadata)))
      exact ⟨e, (parseRaw_append p before [] []).trans he⟩
    · intro p hne hp
      obtain ⟨e, he⟩ := change.numstat_cutShort hne hp
        (Dict.assign [] (before.map fun c => (c.key, c.lineStats)))
      exact ⟨e, (parseNumstat_append p before []).trans he⟩
    · intro path _
      have hraw : encodeRaw (before ++ [change.withPath path]) =
          encodeRaw before ++ (change.withPath path).rawRecord := by
        unfold encodeRaw
        rw [List.flatMap_append, List.flatMap_singleton]
      have hnumstat : encodeNumstat (before ++ [change.withPath path]) =
          encodeNumstat before ++ (change.withPath path).numstatRecord := by
        unfold encodeNumstat
        rw [List.flatMap_append, List.flatMap_singleton]
      constructor
      · rw [hraw, parseRawChanges, parseRawChanges, parseRaw_append, parseRaw_append,
          change.raw_cutInPath]
      · rw [hnumstat, parseNumstat, parseNumstat, parseNumstat_append, parseNumstat_append,
          change.numstat_cutInPath]

/-! ## A conflict, and a path cut in two -/

def mode : Word := ⟨"100644".toUTF8.toList, by decide +kernel⟩

def noMode : Word := ⟨"000000".toUTF8.toList, by decide +kernel⟩

def objectId : Word := ⟨"78981922613b2afb6025042ff6bd878ac1994e85".toUTF8.toList, by decide +kernel⟩

def noObject : Word := ⟨"0000000000000000000000000000000000000000".toUTF8.toList, by decide +kernel⟩

def readmePath : Path := ⟨"README.md".toUTF8.toList, by decide +kernel⟩

def cutPath : Path := ⟨"README".toUTF8.toList, by decide +kernel⟩

/-- Git lists a path in conflict twice: as unmerged, and as modified. -/
def unmerged : GitChange where
  oldMode := mode
  newMode := noMode
  oldSha := objectId
  newSha := noObject
  score := ⟨[], List.forall_mem_nil _⟩
  paths := .ordinary 'U' (by decide) readmePath
  lines := some (⟨0, by decide +kernel⟩, ⟨0, by decide +kernel⟩)

def modified : GitChange where
  oldMode := mode
  newMode := mode
  oldSha := objectId
  newSha := noObject
  score := ⟨[], List.forall_mem_nil _⟩
  paths := .ordinary 'M' (by decide) readmePath
  lines := some (⟨5, by decide +kernel⟩, ⟨0, by decide +kernel⟩)

/-- The unmerged record does not find its own data, and a listing that ends in the path of its
record is read as a change of another file. -/
theorem listings_lose :
    (∃ parsed, parseRawChanges (encodeRaw [unmerged, modified]) = .ok parsed ∧
      Dict.get? parsed.2 unmerged.key ≠ some unmerged.metadata) ∧
    (∃ stats, parseNumstat (encodeNumstat [unmerged, modified]) = .ok stats ∧
      Dict.get? stats unmerged.key ≠ some unmerged.lineStats) ∧
    (∃ t, t <+: encodeRaw [modified] ∧ t.length < (encodeRaw [modified]).length ∧
      ∃ parsed, parseRawChanges t = .ok parsed ∧ parsed.1 ≠ [modified.changedPath]) := by
  refine ⟨⟨_, parseRawChanges_encodeRaw _, ?_⟩, ⟨_, parseNumstat_encodeNumstat _, ?_⟩,
    modified.rawLeading ++ cutPath.val, ?_, ?_, ?_⟩
  · decide +kernel
  · decide +kernel
  · decide +kernel
  · decide +kernel
  · have hshort := parseRawChanges_encodeRaw [modified.withPath cutPath]
    have hrecord : encodeRaw [modified.withPath cutPath] =
        (modified.withPath cutPath).rawRecord := List.flatMap_singleton _ _
    rw [hrecord, parseRawChanges, ← modified.raw_cutInPath] at hshort
    exact ⟨_, hshort, by decide +kernel⟩

end BackgroundAgents.Sandbox.GitListings

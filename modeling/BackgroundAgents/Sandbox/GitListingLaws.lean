import BackgroundAgents.Sandbox.GitListings

/-!
# What the parsers make of Git's listings

One record of a listing is consumed by one turn of the loop (`readRawChanges_record`,
`readNumstat_record`), so a whole listing is read as the records that were written.
A listing that ends early ends between two records, or before the last path of one,
which is an error, or inside that path, which is then read as a shorter one
(`prefix_encodeWith`): the NUL after the last path is not asked for.
-/

namespace BackgroundAgents.Sandbox.GitListings

open Bytes (words splitMax toInt IsWord)
open Utf8 (decode)

variable {field rest raw : List UInt8}

/-! ## Fields -/

theorem splitFields_terminated (h : 0 ∉ field) (rest : List UInt8) :
    splitFields (terminated field ++ rest) = field :: splitFields rest := by
  have hsplit : (terminated field ++ rest).splitOn 0 = field :: rest.splitOn 0 := by
    rw [terminated, List.append_assoc]
    exact List.splitOn_append_cons_self_of_not_mem h rest
  have hne : rest.splitOn 0 ≠ [] := List.splitOn_ne_nil 0 rest
  unfold splitFields
  rw [hsplit]
  dsimp only
  rw [List.getLast?_cons_of_ne_nil hne]
  split
  next => rw [List.dropLast_cons_of_ne_nil hne]
  next => rfl

theorem splitFields_single (hne : field ≠ []) (h : 0 ∉ field) : splitFields field = [field] := by
  have hlast : [field].getLast? ≠ some [] := fun he => hne (Option.some.inj he)
  unfold splitFields
  rw [List.splitOn_eq_singleton h]
  exact if_neg hlast

theorem notMem_of_initial {b : UInt8} {p : List UInt8} (h : b ∉ field) (hp : p <+: field) : b ∉ p :=
  fun hmem => h (hp.subset hmem)

/-- A prefix of two lists ends in the first of them or in the second. -/
theorem prefix_in_append {p u v : List UInt8} (h : p <+: u ++ v) :
    p <+: u ∨ ∃ q, p = u ++ q ∧ q <+: v := by
  rcases List.prefix_or_prefix_of_prefix h (List.prefix_append u v) with hp | hu
  · exact .inl hp
  · obtain ⟨q, rfl⟩ := hu
    exact .inr ⟨q, rfl, (List.prefix_append_right_inj u).mp h⟩

/-- A prefix of a field and its NUL is all of it or a prefix of the field. -/
theorem prefix_terminated {p : List UInt8} (h : p <+: terminated field) :
    p <+: field ∨ p = terminated field := by
  rcases List.prefix_concat_iff.mp h with he | hp
  · exact .inr he
  · exact .inl hp

/-! ## Headers -/

theorem ordinary_letter : ∀ letter ∈ ['A', 'M', 'D', 'T', 'U'],
    letter.toNat < 128 ∧ 32 < letter.toNat ∧ letter.toNat ≠ 'R'.toNat ∧ letter.toNat ≠ 'C'.toNat ∧
      Dict.get? STATUS_BY_LETTER letter.toNat = some (statusOf letter) := by
  simp only [List.forall_mem_cons]
  refine ⟨?_, ?_, ?_, ?_, ?_, List.forall_mem_nil _⟩ <;> decide

theorem moved_letter : ∀ letter ∈ ['R', 'C'],
    letter.toNat < 128 ∧ 32 < letter.toNat ∧
      (letter.toNat = 'R'.toNat ∨ letter.toNat = 'C'.toNat) ∧
      Dict.get? STATUS_BY_LETTER letter.toNat = some (statusOf letter) := by
  simp only [List.forall_mem_cons]
  refine ⟨?_, ?_, List.forall_mem_nil _⟩ <;> decide

theorem Plain.isWord {word : List UInt8} (h : Plain word) (hne : word ≠ []) : IsWord word :=
  ⟨hne, fun b hb => (h b hb).1⟩

theorem notMem_plain {word : List UInt8} (h : Plain word) : 0 ∉ word :=
  fun hmem => (h 0 hmem).2 rfl

namespace GitChange

variable (change : GitChange)

theorem letter_bounds : 32 < change.paths.letter.toNat ∧ change.paths.letter.toNat < 128 := by
  cases change.paths with
  | ordinary letter known path =>
    have hletter := ordinary_letter letter known
    exact ⟨hletter.2.1, hletter.1⟩
  | moved letter known oldPath path =>
    have hletter := moved_letter letter known
    exact ⟨hletter.2.1, hletter.1⟩

/-- The byte of the status letter. -/
theorem letter_byte :
    (UInt8.ofNat change.paths.letter.toNat).toNat = change.paths.letter.toNat := by
  have hbounds := change.letter_bounds
  rw [UInt8.toNat_ofNat']
  exact Nat.mod_eq_of_lt (by omega)

theorem code_plain : Plain (UInt8.ofNat change.paths.letter.toNat :: change.score.val) := by
  have hbounds := change.letter_bounds
  have hbyte := change.letter_byte
  refine List.forall_mem_cons.mpr ⟨⟨?_, ?_⟩, change.score.property⟩
  · have hneg : ¬ ((9 ≤ change.paths.letter.toNat ∧ change.paths.letter.toNat ≤ 13) ∨
        change.paths.letter.toNat = 32) := by omega
    simpa [Bytes.isSpace, hbyte] using hneg
  · intro h
    rw [h] at hbyte
    have hzero : (0 : UInt8).toNat = 0 := rfl
    omega

theorem mode_plain : Plain (0x3a :: change.oldMode.val) :=
  List.forall_mem_cons.mpr ⟨by decide, change.oldMode.property.2⟩

theorem header_noNul : 0 ∉ change.header := by
  unfold header
  simp only [List.mem_append, List.mem_cons, not_or]
  have hmode := notMem_plain change.mode_plain
  have hcode := notMem_plain change.code_plain
  simp only [List.mem_cons, not_or] at hmode hcode
  exact ⟨hmode, by decide, notMem_plain change.newMode.property.2, by decide,
    notMem_plain change.oldSha.property.2, by decide, notMem_plain change.newSha.property.2,
    by decide, hcode⟩

/-- The header that was written. -/
def readBack : Header where
  oldMode := change.oldMode.val
  newMode := change.newMode.val
  oldSha := change.oldSha.val
  newSha := change.newSha.val
  letter := some change.paths.letter.toNat

theorem words_header : words change.header =
    [0x3a :: change.oldMode.val, change.newMode.val, change.oldSha.val, change.newSha.val,
      UInt8.ofNat change.paths.letter.toNat :: change.score.val] := by
  unfold header
  rw [Bytes.words_cons (change.mode_plain.isWord (List.cons_ne_nil _ _)),
    Bytes.words_cons (change.newMode.property.2.isWord change.newMode.property.1),
    Bytes.words_cons (change.oldSha.property.2.isWord change.oldSha.property.1),
    Bytes.words_cons (change.newSha.property.2.isWord change.newSha.property.1),
    Bytes.words_single (change.code_plain.isWord (List.cons_ne_nil _ _))]

theorem readHeader_header : readHeader change.header = .ok change.readBack := by
  have hascii : (UInt8.ofNat change.paths.letter.toNat).toNat < 128 := by
    rw [change.letter_byte]
    exact change.letter_bounds.2
  unfold readHeader
  rw [change.words_header]
  dsimp only
  rw [if_pos (show (0x3a :: change.oldMode.val).head? = some 0x3a from rfl),
    Utf8.decode_cons_ascii hascii, change.letter_byte]
  rfl

theorem readBack_status :
    change.readBack.status = .ok (statusOf change.paths.letter) := by
  have hstatus : Dict.get? STATUS_BY_LETTER change.paths.letter.toNat =
      some (statusOf change.paths.letter) := by
    cases change.paths with
    | ordinary letter known path => exact (ordinary_letter letter known).2.2.2.2
    | moved letter known oldPath path => exact (moved_letter letter known).2.2.2
  unfold Header.status
  rw [show change.readBack.letter.bind (Dict.get? STATUS_BY_LETTER) =
    some (statusOf change.paths.letter) from hstatus]

theorem readBack_hasOldPath : change.readBack.hasOldPath = change.paths.oldPath.isSome := by
  show (some change.paths.letter.toNat = some 'R'.toNat || some change.paths.letter.toNat =
    some 'C'.toNat : Bool) = _
  cases change.paths with
  | ordinary letter known path =>
    have hletter := ordinary_letter letter known
    simpa [Paths.letter, Paths.oldPath] using And.intro hletter.2.2.1 hletter.2.2.2.1
  | moved letter known oldPath path =>
    have hletter := moved_letter letter known
    rcases hletter.2.2.1 with hr | hc
    · simp [Paths.letter, Paths.oldPath, hr]
    · simp [Paths.letter, Paths.oldPath, hc]

/-! ## Records -/

/-- The fields before the last path of a record of `--raw -z`. -/
def rawFields : List (List UInt8) :=
  change.header :: (change.paths.oldPath.map Subtype.val).toList

/-- The fields of a record of `--numstat -z`. -/
def numstatFields : List (List UInt8) :=
  match change.paths.oldPath with
  | none => [change.columns ++ change.paths.path.val]
  | some oldPath => [change.columns, oldPath.val, change.paths.path.val]

theorem columns_noNul : 0 ∉ change.columns := by
  have hdecimal : ∀ n, (0 : UInt8) ∉ Bytes.decimal n :=
    fun n hmem => absurd (Bytes.decimal_byte hmem).1 (by decide)
  unfold columns
  split
  next added deleted _ =>
    simp only [List.mem_append, List.mem_cons, List.not_mem_nil, or_false, not_or]
    exact ⟨hdecimal _, by decide, hdecimal _, by decide⟩
  next => decide

theorem splitFields_rawLeading (rest : List UInt8) :
    splitFields (change.rawLeading ++ rest) = change.rawFields ++ splitFields rest := by
  unfold rawLeading rawFields
  cases change.paths.oldPath with
  | none => exact splitFields_terminated change.header_noNul rest
  | some oldPath =>
    show splitFields (terminated change.header ++ terminated oldPath.val ++ rest) = _
    rw [List.append_assoc, splitFields_terminated change.header_noNul,
      splitFields_terminated oldPath.property.2]
    rfl

theorem splitFields_rawRecord (rest : List UInt8) :
    splitFields (change.rawRecord ++ rest) =
      change.rawFields ++ change.paths.path.val :: splitFields rest := by
  rw [rawRecord, List.append_assoc, change.splitFields_rawLeading,
    splitFields_terminated change.paths.path.property.2]

theorem splitFields_numstatRecord (rest : List UInt8) :
    splitFields (change.numstatRecord ++ rest) = change.numstatFields ++ splitFields rest := by
  unfold numstatRecord numstatLeading numstatFields
  cases change.paths.oldPath with
  | none =>
    have hfield : 0 ∉ change.columns ++ change.paths.path.val := by
      rw [List.mem_append, not_or]
      exact ⟨change.columns_noNul, change.paths.path.property.2⟩
    show splitFields (change.columns ++ terminated change.paths.path.val ++ rest) = _
    rw [terminated, ← List.append_assoc]
    exact splitFields_terminated hfield rest
  | some oldPath =>
    show splitFields (terminated change.columns ++ terminated oldPath.val ++
      terminated change.paths.path.val ++ rest) = _
    rw [List.append_assoc, List.append_assoc, splitFields_terminated change.columns_noNul,
      splitFields_terminated oldPath.property.2,
      splitFields_terminated change.paths.path.property.2]
    rfl

/-- One record is read by one turn of the loop. -/
theorem readRawChanges_record (rest : List (List UInt8)) (changes : List ChangedPath)
    (data : List (Key × TrackedMetadata)) :
    readRawChanges (change.rawFields ++ change.paths.path.val :: rest) changes data =
      readRawChanges rest (changes ++ [change.changedPath])
        (Dict.set data change.key change.metadata) := by
  have hold := change.readBack_hasOldPath
  have hstatus := change.readBack_status
  unfold rawFields changedPath key
  cases hpaths : change.paths with
  | ordinary letter known path =>
    rw [hpaths] at hold hstatus
    show readRawChanges (change.header :: path.val :: rest) changes data = _
    rw [readRawChanges, change.readHeader_header]
    dsimp only
    rw [if_neg (by rw [hold]; exact Bool.false_ne_true), hstatus]
    rfl
  | moved letter known oldPath path =>
    rw [hpaths] at hold hstatus
    show readRawChanges (change.header :: oldPath.val :: path.val :: rest) changes data = _
    rw [readRawChanges, change.readHeader_header]
    dsimp only
    rw [if_pos (by rw [hold]; rfl), hstatus]
    rfl

/-- The columns of a record, before whatever stands in the third. -/
theorem splitMax_columns (third : List UInt8) :
    ∃ additions deletions, splitMax 0x09 2 (change.columns ++ third) =
        [additions, deletions, third] ∧
      parseStatColumns additions deletions = .ok change.lineStats := by
  unfold columns lineStats
  cases change.lines with
  | none =>
    have htab : (0x09 : UInt8) ∉ [(0x2d : UInt8)] := by decide
    refine ⟨[0x2d], [0x2d], ?_, rfl⟩
    show splitMax 0x09 2 ([0x2d] ++ 0x09 :: ([0x2d] ++ 0x09 :: third)) = _
    rw [Bytes.splitMax_append htab, Bytes.splitMax_append htab, splitMax]
  | some lines =>
    obtain ⟨added, deleted⟩ := lines
    have htab : ∀ n, (0x09 : UInt8) ∉ Bytes.decimal n :=
      fun n hmem => absurd (Bytes.decimal_byte hmem).1 (by decide)
    have hminus : ∀ n, Bytes.decimal n ≠ [0x2d] := by
      intro n he
      have hdigit := Bytes.decimal_byte (n := n) (b := 0x2d) (he ▸ List.mem_singleton_self _)
      exact absurd hdigit.1 (by decide)
    refine ⟨Bytes.decimal added.val, Bytes.decimal deleted.val, ?_, ?_⟩
    · dsimp only
      rw [List.append_assoc, List.cons_append, List.append_assoc,
        Bytes.splitMax_append (htab added.val), List.singleton_append,
        Bytes.splitMax_append (htab deleted.val), splitMax]
    · unfold parseStatColumns
      rw [if_neg (not_or.mpr ⟨hminus _, hminus _⟩), Bytes.toInt_decimal added.property,
        Bytes.toInt_decimal deleted.property]

theorem readNumstat_record (rest : List (List UInt8)) (stats : List (Key × LineStats)) :
    readNumstat (change.numstatFields ++ rest) stats =
      readNumstat rest (Dict.set stats change.key change.lineStats) := by
  unfold numstatFields key
  cases hpaths : change.paths with
  | ordinary letter known path =>
    obtain ⟨additions, deletions, hsplit, hstats⟩ := change.splitMax_columns path.val
    show readNumstat ((change.columns ++ path.val) :: rest) stats = _
    rw [readNumstat, hsplit]
    dsimp only
    rw [hstats]
    dsimp only
    rw [if_pos path.property.1]
    rfl
  | moved letter known oldPath path =>
    obtain ⟨additions, deletions, hsplit, hstats⟩ := change.splitMax_columns []
    rw [List.append_nil] at hsplit
    show readNumstat (change.columns :: oldPath.val :: path.val :: rest) stats = _
    rw [readNumstat, hsplit]
    dsimp only
    rw [hstats]
    dsimp only
    rw [if_neg (fun h => h rfl)]
    rfl

end GitChange

/-! ## Whole listings -/

/-- The records of a listing are read, and then what follows them. -/
theorem parseRaw_append (rest : List UInt8) :
    ∀ (changes : List GitChange) (done : List ChangedPath) (data : List (Key × TrackedMetadata)),
      readRawChanges (splitFields (encodeRaw changes ++ rest)) done data =
        readRawChanges (splitFields rest) (done ++ changes.map (·.changedPath))
          (Dict.assign data (changes.map fun c => (c.key, c.metadata)))
  | [], done, data => by
    rw [List.map_nil, List.append_nil]
    rfl
  | change :: changes, done, data => by
    show readRawChanges
      (splitFields ((change.rawRecord ++ encodeRaw changes) ++ rest)) done data = _
    rw [List.append_assoc, change.splitFields_rawRecord, change.readRawChanges_record,
      parseRaw_append rest changes, List.append_assoc]
    rfl

theorem parseNumstat_append (rest : List UInt8) :
    ∀ (changes : List GitChange) (stats : List (Key × LineStats)),
      readNumstat (splitFields (encodeNumstat changes ++ rest)) stats =
        readNumstat (splitFields rest)
          (Dict.assign stats (changes.map fun c => (c.key, c.lineStats)))
  | [], stats => rfl
  | change :: changes, stats => by
    show readNumstat
      (splitFields ((change.numstatRecord ++ encodeNumstat changes) ++ rest)) stats = _
    rw [List.append_assoc, change.splitFields_numstatRecord, change.readNumstat_record,
      parseNumstat_append rest changes]
    rfl

/-- A listing of `--raw -z` is read as the records that were written. -/
theorem parseRawChanges_encodeRaw (changes : List GitChange) :
    parseRawChanges (encodeRaw changes) =
      .ok (changes.map (·.changedPath),
        Dict.ofList (changes.map fun c => (c.key, c.metadata))) := by
  have hparse := parseRaw_append [] changes [] []
  rw [List.append_nil] at hparse
  exact hparse

theorem parseNumstat_encodeNumstat (changes : List GitChange) :
    parseNumstat (encodeNumstat changes) =
      .ok (Dict.ofList (changes.map fun c => (c.key, c.lineStats))) := by
  have hparse := parseNumstat_append [] changes []
  rw [List.append_nil] at hparse
  exact hparse

end BackgroundAgents.Sandbox.GitListings

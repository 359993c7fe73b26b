import BackgroundAgents.Attachments.GeneratedFiles

/-!
# Download headers

A header that was formatted is read back, and a header that is read names one file: a client
that takes the quoted fallback sees the same name, with underscores for what is not ASCII.
-/

namespace BackgroundAgents.Attachments.GeneratedFiles

variable {unicode : Unicode} {filename value fallback t : Text} {cs : List Char}

/-! ## Clients -/

/-- A quoted string up to its closing quote; a backslash stands before any character. -/
def quotedString : Text → Option Text
  | [] => none
  | u :: t =>
    if u = quote then some []
    else if u = backslash then
      match t with
      | [] => none
      | v :: t => (quotedString t).map (v :: ·)
    else (quotedString t).map (u :: ·)

/-- The fallback in a header, for a client that does not know `filename*`. -/
def fallbackName (value : Text) : Option Text := (afterLiteral opening value).bind quotedString

/-- An underscore for each character that is not ASCII. -/
def underscored (filename : Text) : Text :=
  (Utf16.decodeLossy filename).map fun c =>
    if c.toNat < 0x80 then UInt16.ofNat c.toNat else underscore

def printable (u : UInt16) : Bool := 0x20 ≤ u.toNat && u.toNat ≤ 0x7e

/-! ## Accepted names -/

theorem accepted_safe (h : accepted unicode filename = true) :
    isSafeFilename unicode filename = true := by
  unfold accepted at h
  rw [Bool.and_eq_true] at h
  exact h.2

/-- An accepted name is made of allowed characters. -/
theorem accepted_chars (h : accepted unicode filename = true) :
    ∃ cs, Utf16.decode filename = some cs ∧ filename ≠ [] ∧
      ∀ c ∈ cs, forbidden unicode c = false := by
  have hsafe := accepted_safe h
  unfold isSafeFilename at hsafe
  split at hsafe
  next => exact absurd hsafe Bool.false_ne_true
  next hnot =>
    simp only [Bool.or_eq_true, decide_eq_true_eq, not_or] at hnot
    cases hdecode : Utf16.decode filename with
    | none =>
      unfold Uri.encodeURIComponent at hsafe
      rw [hdecode] at hsafe
      exact absurd hsafe Bool.false_ne_true
    | some cs =>
      refine ⟨cs, rfl, hnot.1.1.1, fun c hc => ?_⟩
      have hnone := hnot.2
      unfold hasForbiddenFilenameCharacters at hnone
      rw [Utf16.decodeLossy_of_decode hdecode, Bool.not_eq_true] at hnone
      exact Bool.eq_false_iff.mpr fun hforbidden =>
        absurd (List.any_eq_false.mp hnone c hc) (not_not.mpr hforbidden)

theorem allowed_char {c : Char} (h : forbidden unicode c = false) :
    0x20 ≤ c.toNat ∧ c.toNat ≠ 0x7f ∧ c.toNat ≠ 0x5c := by
  unfold forbidden at h
  simp only [Bool.or_eq_false_iff, Bool.and_eq_false_iff, decide_eq_false_iff_not, ne_eq,
    decide_not, Bool.not_eq_false', decide_eq_true_eq] at h
  omega

/-! ## The fallback -/

theorem asciiFilename_units (h : accepted unicode filename = true) :
    ∀ u ∈ asciiFilename filename, printable u = true ∧ u ≠ backslash := by
  obtain ⟨cs, hdecode, _, hchars⟩ := accepted_chars h
  intro u hu
  unfold asciiFilename at hu
  rw [Utf16.decodeLossy_of_decode hdecode] at hu
  obtain ⟨c, hc, rfl⟩ := List.mem_map.mp hu
  have hallowed := allowed_char (hchars c hc)
  split
  next => decide
  next hle =>
    have hunit := Utf16.toNat_ofNat (show c.toNat < 0x10000 by omega)
    unfold printable
    rw [Bool.and_eq_true, decide_eq_true_eq, decide_eq_true_eq, hunit]
    refine ⟨by omega, fun he => ?_⟩
    rw [he] at hunit
    exact hallowed.2.2 hunit.symm

/-- No accepted name has the one ASCII character that the two differ in. -/
theorem asciiFilename_eq (h : accepted unicode filename = true) :
    asciiFilename filename = underscored filename := by
  obtain ⟨cs, hdecode, _, hchars⟩ := accepted_chars h
  unfold asciiFilename underscored
  rw [Utf16.decodeLossy_of_decode hdecode]
  refine List.map_congr_left fun c hc => ?_
  have hallowed := allowed_char (hchars c hc)
  by_cases hascii : c.toNat < 0x80
  · rw [if_neg (by omega), if_pos hascii]
  · rw [if_pos (by omega), if_neg hascii]

theorem escapeQuotes_cons (u : UInt16) (t : Text) : escapeQuotes (u :: t) =
    (if u = quote then [backslash, quote] else [u]) ++ escapeQuotes t := List.flatMap_cons

theorem quotedRun_quote (t : Text) : quotedRun (quote :: t) = ([], quote :: t) := by
  rw [quotedRun.eq_def]
  exact if_pos rfl

theorem quotedRun_escaped (t : Text) : quotedRun (backslash :: quote :: t) =
    (backslash :: quote :: (quotedRun t).1, (quotedRun t).2) := by
  rw [quotedRun.eq_def]
  rfl

theorem quotedRun_other {u : UInt16} (hquote : u ≠ quote) (hslash : u ≠ backslash) (t : Text) :
    quotedRun (u :: t) = (u :: (quotedRun t).1, (quotedRun t).2) := by
  rw [quotedRun.eq_def]
  exact (if_neg hquote).trans (if_neg hslash)

theorem quotedRun_escapeQuotes (h : ∀ u ∈ t, u ≠ backslash) (rest : Text) :
    quotedRun (escapeQuotes t ++ quote :: rest) = (escapeQuotes t, quote :: rest) := by
  induction t with
  | nil => exact quotedRun_quote rest
  | cons u t ih =>
    rw [List.forall_mem_cons] at h
    rw [escapeQuotes_cons]
    split
    next =>
      show quotedRun (backslash :: quote :: (escapeQuotes t ++ quote :: rest)) = _
      rw [quotedRun_escaped, ih h.2]
      rfl
    next hu => rw [List.singleton_append, List.cons_append, quotedRun_other hu h.1, ih h.2]

theorem unescapeQuotes_other {u : UInt16} (h : u ≠ backslash) (t : Text) :
    unescapeQuotes (u :: t) = u :: unescapeQuotes t := by
  cases t with
  | nil => rfl
  | cons v t => rw [unescapeQuotes, if_neg fun hboth => h hboth.1]

theorem unescapeQuotes_escaped (t : Text) :
    unescapeQuotes (backslash :: quote :: t) = quote :: unescapeQuotes t := by
  rw [unescapeQuotes, if_pos ⟨rfl, rfl⟩]

theorem unescapeQuotes_escapeQuotes (h : ∀ u ∈ t, u ≠ backslash) :
    unescapeQuotes (escapeQuotes t) = t := by
  induction t with
  | nil => rfl
  | cons u t ih =>
    rw [List.forall_mem_cons] at h
    rw [escapeQuotes_cons]
    split
    next hu =>
      show unescapeQuotes (backslash :: quote :: escapeQuotes t) = _
      rw [unescapeQuotes_escaped, ih h.2, hu]
    next => rw [List.singleton_append, unescapeQuotes_other h.1, ih h.2]

/-- A client reads what the expression captures, up to the quote behind it. -/
theorem quotedString_run : ∀ {t rest : Text}, (quotedRun t).2 = quote :: rest →
    quotedString t = some (unescapeQuotes (quotedRun t).1)
  | [], rest, h => by cases h
  | u :: t, rest, h => by
    by_cases hquote : u = quote
    · rw [hquote, quotedRun_quote, quotedString.eq_def]
      rfl
    · by_cases hslash : u = backslash
      · cases t with
        | nil =>
          rw [hslash] at h
          have hstop : [backslash] = quote :: rest := h
          exact absurd (List.cons.inj hstop).1 (by decide)
        | cons v t =>
          by_cases hv : v = quote
          · rw [hslash, hv, quotedRun_escaped] at h ⊢
            rw [unescapeQuotes_escaped, quotedString.eq_def]
            show (quotedString t).map (quote :: ·) = _
            rw [quotedString_run h]
            rfl
          · have hstop : quotedRun (u :: v :: t) = ([], u :: v :: t) := by
              rw [quotedRun.eq_def]
              exact (if_neg hquote).trans ((if_pos hslash).trans (if_neg hv))
            rw [hstop] at h
            exact absurd (List.cons.inj h).1 hquote
      · have hread : quotedString (u :: t) = (quotedString t).map (u :: ·) := by
          rw [quotedString.eq_def]
          exact (if_neg hquote).trans (if_neg hslash)
        rw [quotedRun_other hquote hslash] at h ⊢
        rw [hread, quotedString_run h, unescapeQuotes_other hslash]
        rfl

/-! ## The encoded name -/

/-- The characters that stay in the header. -/
def keptInHeader (c : Char) : Bool :=
  Uri.unreserved c && !([0x21, 0x27, 0x28, 0x29, 0x2a].contains c.toNat)

theorem encodeMarks_append (t t' : Text) :
    encodeMarks (t ++ t') = encodeMarks t ++ encodeMarks t' := List.flatMap_append

theorem encodeMarks_percents (bytes : List UInt8) :
    encodeMarks (bytes.flatMap Uri.percent) = bytes.flatMap Uri.percent := by
  have hdigit : ∀ n < 16,
      ([0x21, 0x27, 0x28, 0x29, 0x2a].contains (Uri.hexDigit n).toNat) = false := by decide
  induction bytes with
  | nil => rfl
  | cons b bytes ih =>
    have hlt := b.toNat_lt
    have hpercent : encodeMarks (Uri.percent b) = Uri.percent b := by
      unfold encodeMarks Uri.percent
      rw [List.flatMap_cons, List.flatMap_cons, List.flatMap_cons, List.flatMap_nil,
        if_neg (by decide), hdigit _ (by omega), hdigit _ (by omega)]
      rfl
    rw [List.flatMap_cons, encodeMarks_append, hpercent, ih]

/-- Both replacements at once. -/
theorem encodeMarks_encode (cs : List Char) :
    encodeMarks (Uri.encode Uri.unreserved cs) = Uri.encode keptInHeader cs := by
  induction cs with
  | nil => rfl
  | cons c cs ih =>
    show encodeMarks (Uri.escape Uri.unreserved c ++ Uri.encode Uri.unreserved cs) =
      Uri.escape keptInHeader c ++ Uri.encode keptInHeader cs
    rw [encodeMarks_append, ih]
    refine congrArg (· ++ _) ?_
    unfold Uri.escape keptInHeader
    cases hc : Uri.unreserved c with
    | false =>
      rw [if_neg Bool.false_ne_true, Bool.false_and, if_neg Bool.false_ne_true,
        encodeMarks_percents]
    | true =>
      have hascii := Uri.unreserved_keeps c hc
      have hunit := Utf16.toNat_ofNat (show c.toNat < 0x10000 by omega)
      unfold encodeMarks
      rw [if_pos rfl, List.flatMap_singleton, hunit, Bool.true_and]
      cases hmark : [0x21, 0x27, 0x28, 0x29, 0x2a].contains c.toNat with
      | true =>
        have hbytes : Utf8.encodePoint c.toNat = [UInt8.ofNat c.toNat] := if_pos hascii.1
        rw [if_pos rfl, Bool.not_true, if_neg Bool.false_ne_true, hbytes, List.flatMap_singleton]
      | false => rw [if_neg Bool.false_ne_true, Bool.not_false, if_pos rfl]

theorem keptInHeader_unreserved (c : Char) (h : keptInHeader c = true) :
    Uri.unreserved c = true := by
  unfold keptInHeader at h
  rw [Bool.and_eq_true] at h
  exact h.1

theorem keptInHeader_keeps : Uri.Keeps keptInHeader :=
  fun c h => Uri.unreserved_keeps c (keptInHeader_unreserved c h)

theorem printable_alphanumeric {u : UInt16} (h : Uri.alphanumeric u.toNat = true) :
    printable u = true := by
  have hlt := Uri.alphanumeric_lt h
  unfold printable
  rw [Bool.and_eq_true, decide_eq_true_eq, decide_eq_true_eq]
  omega

theorem printable_encode {u : UInt16} (h : u ∈ Uri.encode keptInHeader cs) :
    printable u = true := by
  obtain ⟨c, hc, hu⟩ | rfl | hdigit := Uri.mem_encode keptInHeader_keeps h
  · have hunreserved := keptInHeader_unreserved c hc
    unfold Uri.unreserved at hunreserved
    rw [← hu, Bool.or_eq_true] at hunreserved
    cases hunreserved with
    | inl halphanumeric => exact printable_alphanumeric halphanumeric
    | inr hmark =>
      have hmarks : ∀ n ∈ Uri.marks, 0x20 ≤ n ∧ n ≤ 0x7e := by decide
      unfold printable
      rw [Bool.and_eq_true, decide_eq_true_eq, decide_eq_true_eq]
      exact hmarks _ (List.contains_iff_mem.mp hmark)
  · decide
  · exact printable_alphanumeric hdigit

/-! ## Headers -/

theorem afterLiteral_append (literal t : Text) : afterLiteral literal (literal ++ t) = some t := by
  induction literal with
  | nil => rfl
  | cons u literal ih => rw [List.cons_append, afterLiteral, if_pos rfl, ih]

/-- The header of an accepted name. -/
theorem format_eq (h : accepted unicode filename = true) :
    ∃ cs, Utf16.encode cs = filename ∧ filename ≠ [] ∧
      formatGeneratedFileDisposition unicode filename =
        some (opening ++ (escapeQuotes (asciiFilename filename) ++
          (middle ++ Uri.encode keptInHeader cs))) := by
  obtain ⟨cs, hdecode, hne, _⟩ := accepted_chars h
  refine ⟨cs, Utf16.encode_decode hdecode, hne, ?_⟩
  unfold formatGeneratedFileDisposition Uri.encodeURIComponent
  rw [if_pos h, hdecode, Option.map_some, Option.map_some, encodeMarks_encode]

theorem parse_format (h : accepted unicode filename = true)
    (hformat : formatGeneratedFileDisposition unicode filename = some value) :
    parseGeneratedFileDisposition unicode value = some filename := by
  obtain ⟨cs, hencode, hne, hvalue⟩ := format_eq h
  obtain rfl := Option.some.inj (hvalue.symm.trans hformat)
  have hslash : ∀ u ∈ asciiFilename filename, u ≠ backslash :=
    fun u hu => (asciiFilename_units h u hu).2
  have hdecode := Uri.decode_encode keptInHeader_keeps cs
  rw [hencode] at hdecode
  have hencoded : ¬ (Uri.encode keptInHeader cs = [] ∨
      semicolon ∈ Uri.encode keptInHeader cs) := by
    rw [not_or]
    refine ⟨fun hnil => ?_, Uri.not_mem_encode keptInHeader_unreserved (by decide)⟩
    rw [hnil] at hdecode
    exact hne (Option.some.inj hdecode).symm
  have hmiddle : ∀ rest, middle ++ rest = quote :: (middle.tail ++ rest) := fun rest => rfl
  have hrun := quotedRun_escapeQuotes hslash (middle.tail ++ Uri.encode keptInHeader cs)
  unfold parseGeneratedFileDisposition
  rw [afterLiteral_append, Option.bind_eq_bind, Option.bind_some, hmiddle, hrun, ← hmiddle]
  dsimp only [Option.bind_eq_bind]
  rw [afterLiteral_append, Option.bind_some, if_neg hencoded, hdecode, Option.bind_some,
    unescapeQuotes_escapeQuotes hslash, if_pos ⟨h, rfl⟩]

theorem printable_format (h : accepted unicode filename = true)
    (hformat : formatGeneratedFileDisposition unicode filename = some value) :
    ∀ u ∈ value, printable u = true := by
  obtain ⟨cs, _, _, hvalue⟩ := format_eq h
  obtain rfl := Option.some.inj (hvalue.symm.trans hformat)
  have hliterals : (opening ++ middle).all printable = true := by decide
  rw [List.all_append, Bool.and_eq_true, List.all_eq_true, List.all_eq_true] at hliterals
  intro u hu
  rw [List.mem_append, List.mem_append, List.mem_append] at hu
  obtain hu | hu | hu | hu := hu
  · exact hliterals.1 u hu
  · obtain ⟨v, hv, hu⟩ := List.mem_flatMap.mp hu
    split at hu
    next =>
      rw [List.mem_cons, List.mem_singleton] at hu
      obtain rfl | rfl := hu
      · decide
      · decide
    next =>
      rw [List.mem_singleton.mp hu]
      exact (asciiFilename_units h v hv).1
  · exact hliterals.2 u hu
  · exact printable_encode hu

theorem quote_of_lower {u : UInt16} (h : lower quote = lower u) : u = quote := by
  have hquote : lower quote = quote := by decide
  rw [hquote] at h
  unfold lower at h
  split at h
  next hupper =>
    have hsum := congrArg UInt16.toNat h
    have hlt := u.toNat_lt
    have hvalue : quote.toNat = 0x22 := by decide
    have hstep : (0x20 : UInt16).toNat = 0x20 := by decide
    rw [UInt16.toNat_add, hstep, hvalue] at hsum
    omega
  next => exact h.symm

/-- The quote behind the captured fallback. -/
theorem quote_behind {encoded : Text} (h : afterLiteral middle t = some encoded) :
    ∃ behind, t = quote :: behind := by
  cases t with
  | nil => cases h
  | cons u t =>
    refine ⟨t, congrArg (· :: t) (quote_of_lower ?_)⟩
    by_contra hne
    have hmiddle : afterLiteral middle (u :: t) = none := if_neg hne
    rw [hmiddle] at h
    cases h

theorem parse_consistent
    (h : parseGeneratedFileDisposition unicode value = some filename) :
    accepted unicode filename = true ∧ fallbackName value = some (underscored filename) := by
  obtain ⟨rest, hopening, h⟩ := Option.bind_eq_some_iff.mp h
  obtain ⟨encoded, hmiddle, h⟩ := Option.bind_eq_some_iff.mp h
  split at h
  next => cases h
  next =>
    obtain ⟨name, _, h⟩ := Option.bind_eq_some_iff.mp h
    split at h
    next hboth =>
      obtain rfl := Option.some.inj h
      obtain ⟨behind, hbehind⟩ := quote_behind hmiddle
      refine ⟨hboth.1, ?_⟩
      unfold fallbackName
      rw [hopening, Option.bind_some, quotedString_run hbehind, hboth.2,
        asciiFilename_eq hboth.1]
    next => cases h

/-- Every accepted name has a header of printable ASCII, which is read as the name; and a header
that is read as a name is read by a client without `filename*` as the same name, up to
underscores. -/
theorem download_headers (unicode : Unicode) :
    (∀ filename, accepted unicode filename = true →
      ∃ value, formatGeneratedFileDisposition unicode filename = some value ∧
        (∀ u ∈ value, printable u = true) ∧
        parseGeneratedFileDisposition unicode value = some filename) ∧
    ∀ value filename, parseGeneratedFileDisposition unicode value = some filename →
      accepted unicode filename = true ∧ fallbackName value = some (underscored filename) := by
  refine ⟨fun filename h => ?_, fun value filename h => parse_consistent h⟩
  obtain ⟨cs, _, _, hformat⟩ := format_eq h
  exact ⟨_, hformat, printable_format h hformat, parse_format h hformat⟩

/-- The tables of the platform for composed Latin letters. -/
def latin : Unicode where
  nfc t := t
  formatControl c := c.toNat = 0xad

def quotedName : Text := Utf16.encode ['é', '"', '1', '"', '.', 'm', 'd']

theorem quotedName_read : ∃ value, formatGeneratedFileDisposition latin quotedName = some value ∧
    (∀ u ∈ value, printable u = true) ∧
    parseGeneratedFileDisposition latin value = some quotedName ∧
    fallbackName value = some (Utf16.encode ['_', '"', '1', '"', '.', 'm', 'd']) := by
  have haccepted : accepted latin quotedName = true := by decide +kernel
  obtain ⟨value, hformat, hprintable, hparse⟩ := (download_headers latin).1 quotedName haccepted
  refine ⟨value, hformat, hprintable, hparse, ?_⟩
  rw [((download_headers latin).2 value quotedName hparse).2]
  decide +kernel

end BackgroundAgents.Attachments.GeneratedFiles

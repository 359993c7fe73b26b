import Mathlib.Data.Nat.Digits.Lemmas
import BackgroundAgents.Lib.Lexicographic
import BackgroundAgents.Lib.StableSort
import BackgroundAgents.Services.Signatures

/-!
# What a signature stands for

A canonical string has each field of the request on a line of its own, so two requests with
the same string have the same fields (`canonical_fields`). The line of the query is that of
its entries in their sorted order, which two queries with the same entries share unless
entries whose joined keys are the same stand in different orders (`canonicalizeQuery_eq_iff`).
-/

namespace BackgroundAgents.Services

open StableSort

variable {platform : Platform} {a b x y : Text} {cs cs' : List Char}

/-! ## Lines -/

variable {u : UInt16}

/-- A text before a separator that it does not hold. -/
theorem line_inj : ∀ {a b x y : Text}, u ∉ a → u ∉ b →
    a ++ u :: x = b ++ u :: y → a = b ∧ x = y
  | [], [], x, y, _, _, h => ⟨rfl, (List.cons.inj h).2⟩
  | [], c :: b, x, y, _, hb, h => absurd ((List.cons.inj h).1 ▸ List.mem_cons_self) hb
  | c :: a, [], x, y, ha, _, h => absurd ((List.cons.inj h).1 ▸ List.mem_cons_self) ha
  | c :: a, d :: b, x, y, ha, hb, h => by
    rw [List.mem_cons, not_or] at ha hb
    obtain ⟨rfl, htail⟩ := List.cons.inj h
    obtain ⟨rfl, hrest⟩ := line_inj ha.2 hb.2 htail
    exact ⟨rfl, hrest⟩

/-! ## UTF-8 -/

theorem utf8_injective : Function.Injective utf8 := by
  intro cs
  induction cs with
  | nil =>
    intro cs' h
    cases cs' with
    | nil => rfl
    | cons c cs' =>
      obtain ⟨a, rest, hbytes, _⟩ := Utf8.head_encodePoint (Utf16.char_lt c)
        (Utf16.char_scalar c) []
      rw [utf8, utf8, List.flatMap_cons, hbytes] at h
      cases h
  | cons c cs ih =>
    intro cs' h
    cases cs' with
    | nil =>
      obtain ⟨a, rest, hbytes, _⟩ := Utf8.head_encodePoint (Utf16.char_lt c)
        (Utf16.char_scalar c) []
      rw [utf8, utf8, List.flatMap_cons, hbytes] at h
      cases h
    | cons c' cs' =>
      obtain ⟨a, rest, hbytes, _, hhead⟩ := Utf8.head_encodePoint (Utf16.char_lt c)
        (Utf16.char_scalar c) (utf8 cs)
      obtain ⟨a', rest', hbytes', _, hhead'⟩ := Utf8.head_encodePoint (Utf16.char_lt c')
        (Utf16.char_scalar c') (utf8 cs')
      have hcons : a :: (rest ++ utf8 cs) = a' :: (rest' ++ utf8 cs') := by
        rw [utf8, utf8, List.flatMap_cons, List.flatMap_cons, hbytes, hbytes'] at h
        exact h
      obtain ⟨rfl, htail⟩ := List.cons.inj hcons
      rw [htail, hhead'] at hhead
      obtain ⟨hchar, hlength⟩ := Prod.mk.inj hhead
      have hc : c' = c := Char.toNat_inj.mp hchar
      rw [hc, ih (List.append_inj htail hlength.symm).2]

/-! ## Order of entries -/

theorem compareBytes_eq : ∀ xs ys : List UInt8, compareBytes xs ys =
    Lexicographic.compare (xs.map UInt8.toNat) (ys.map UInt8.toNat)
  | [], ys => by
    rw [List.map_nil, Lexicographic.compare_nil, List.length_map]
    cases ys with
    | nil => rfl
    | cons y ys =>
      show (0 : ℤ) - _ = _
      omega
  | x :: xs, [] => by
    rw [List.map_nil, Lexicographic.compare_comm, Lexicographic.compare_nil, List.length_map]
    show _ - (0 : ℤ) = _
    omega
  | x :: xs, y :: ys => by
    rw [List.map_cons, List.map_cons, compareBytes, Lexicographic.compare, compareBytes_eq xs ys]
    simp only [ne_eq, UInt8.toNat_inj]

theorem entryLe_iff {e f : Entry} : EntryLe e f ↔
    Lexicographic.compare ((utf8 (joinedKey e)).map UInt8.toNat)
      ((utf8 (joinedKey f)).map UInt8.toNat) ≤ 0 := by
  unfold EntryLe compareUtf8Bytes
  rw [compareBytes_eq]

instance : Std.Total EntryLe where
  total e f := by
    rw [entryLe_iff, entryLe_iff, Lexicographic.compare_comm ((utf8 (joinedKey e)).map _)]
    omega

instance : IsTrans Entry EntryLe where
  trans _ _ _ h h' :=
    entryLe_iff.mpr (Lexicographic.compare_trans (entryLe_iff.mp h) (entryLe_iff.mp h'))

theorem tied_iff {e f : Entry} : Tied EntryLe e f ↔ joinedKey e = joinedKey f := by
  unfold Tied
  rw [entryLe_iff, entryLe_iff, Lexicographic.compare_comm ((utf8 (joinedKey e)).map _)]
  constructor
  · intro h
    have hsame := Lexicographic.eq_of_compare
      (show Lexicographic.compare ((utf8 (joinedKey e)).map UInt8.toNat)
        ((utf8 (joinedKey f)).map UInt8.toNat) = 0 by omega)
    exact utf8_injective (List.map_injective_iff.mpr (fun _ _ => UInt8.toNat_inj.mp) hsame)
  · intro h
    rw [h, Lexicographic.compare_self]
    omega

/-- Entries with one joined key stand in the same order. -/
def SameOrder (entries entries' : List Entry) : Prop :=
  ∀ key, entries.filter (fun e => joinedKey e = key) = entries'.filter fun e => joinedKey e = key

theorem ties_eq (e : Entry) (entries : List Entry) :
    ties EntryLe e entries = entries.filter fun f => joinedKey f = joinedKey e := by
  unfold ties
  refine List.filter_congr fun f _ => ?_
  rw [decide_eq_decide, tied_iff]
  exact eq_comm

theorem sort_eq_iff {entries entries' : List Entry} :
    entries.insertionSort EntryLe = entries'.insertionSort EntryLe ↔
      SameOrder entries entries' := by
  rw [insertionSort_eq_iff]
  constructor
  · intro h key
    by_cases hsome : ∃ e ∈ entries ++ entries', joinedKey e = key
    · obtain ⟨e, _, rfl⟩ := hsome
      rw [← ties_eq, ← ties_eq, h]
    · have hnone : ∀ l : List Entry, l ⊆ entries ++ entries' →
          (l.filter fun e => joinedKey e = key) = [] := by
        intro l hl
        refine List.filter_eq_nil_iff.mpr fun e he => ?_
        rw [decide_eq_true_eq]
        exact fun hkey => hsome ⟨e, hl he, hkey⟩
      rw [hnone _ (List.subset_append_left _ _), hnone _ (List.subset_append_right _ _)]
  · intro h e
    rw [ties_eq, ties_eq, h]

/-! ## The line of a query -/

theorem encodeEntry_injective : Function.Injective encodeEntry := by
  intro e f h
  unfold encodeEntry at h
  have hkey : ∀ cs : List Char, equals ∉ Uri.encode Uri.unreserved cs :=
    fun cs => Uri.not_mem_encode (fun _ h => h) (by decide)
  obtain ⟨hfirst, htail⟩ := line_inj (hkey _) (hkey _) h
  exact Prod.ext (Uri.encode_injective Uri.unreserved_keeps hfirst)
    (Uri.encode_injective Uri.unreserved_keeps htail)

theorem not_mem_encodeEntry (hu : u ≠ equals)
    (h : (u = 0x25 || Uri.alphanumeric u.toNat || Uri.marks.contains u.toNat) = false) (e : Entry) :
    u ∉ encodeEntry e := by
  unfold encodeEntry
  rw [List.mem_append, List.mem_cons, not_or, not_or]
  exact ⟨Uri.not_mem_encode (fun _ h => h) h, hu, Uri.not_mem_encode (fun _ h => h) h⟩

theorem encodeEntry_ne_nil (e : Entry) : encodeEntry e ≠ [] := by
  unfold encodeEntry
  exact List.append_ne_nil_of_right_ne_nil _ (List.cons_ne_nil _ _)

theorem joined_entries_ne_nil (e : Entry) (entries : List Entry) :
    [ampersand].intercalate ((e :: entries).map encodeEntry) ≠ [] := by
  cases entries with
  | nil =>
    rw [List.map_singleton, List.intercalate_singleton]
    exact encodeEntry_ne_nil e
  | cons f entries =>
    rw [List.map_cons, List.map_cons, List.intercalate_cons_cons, List.append_assoc]
    exact List.append_ne_nil_of_left_ne_nil (encodeEntry_ne_nil e) _

/-- The joined entries are known from the string. -/
theorem entries_injective : ∀ {entries entries' : List Entry},
    [ampersand].intercalate (entries.map encodeEntry) =
      [ampersand].intercalate (entries'.map encodeEntry) → entries = entries'
  | [], [], _ => rfl
  | [], f :: entries', h => absurd h.symm (joined_entries_ne_nil f entries')
  | e :: entries, [], h => absurd h (joined_entries_ne_nil e entries)
  | e :: entries, f :: entries', h => by
    have hsplit : ∀ (e : Entry) (entries : List Entry),
        ([ampersand].intercalate ((e :: entries).map encodeEntry)).splitOn ampersand =
          (e :: entries).map encodeEntry := by
      intro e entries
      refine List.splitOn_intercalate ampersand (fun piece hpiece => ?_) (List.cons_ne_nil _ _)
      obtain ⟨entry, _, rfl⟩ := List.mem_map.mp hpiece
      exact not_mem_encodeEntry (by decide) (by decide) entry
    have hmap := hsplit e entries
    rw [h, hsplit] at hmap
    exact (List.map_injective_iff.mpr encodeEntry_injective hmap).symm

theorem canonicalizeQuery_eq {search search' : Text} :
    canonicalizeQuery search = canonicalizeQuery search' ↔
      SameOrder (searchEntries search) (searchEntries search') := by
  rw [← sort_eq_iff]
  constructor
  · exact entries_injective
  · intro h
    unfold canonicalizeQuery
    rw [h]

theorem perm_of_canonicalizeQuery {search search' : Text}
    (h : canonicalizeQuery search = canonicalizeQuery search') :
    (searchEntries search).Perm (searchEntries search') := by
  refine perm_of_ties (r := EntryLe) fun e => ?_
  rw [ties_eq, ties_eq]
  exact canonicalizeQuery_eq.mp h (joinedKey e)

theorem not_mem_joined {u v : UInt16} (hv : u ≠ v) : ∀ {pieces : List Text},
    (∀ piece ∈ pieces, u ∉ piece) → u ∉ [v].intercalate pieces
  | [], _ => List.not_mem_nil
  | [piece], h => by
    rw [List.intercalate_singleton]
    exact h piece List.mem_cons_self
  | piece :: next :: pieces, h => by
    rw [List.forall_mem_cons] at h
    rw [List.intercalate_cons_cons, List.append_assoc, List.mem_append, List.singleton_append,
      List.mem_cons, not_or, not_or]
    exact ⟨h.1, hv, not_mem_joined hv h.2⟩

theorem canonicalizeQuery_line (search : Text) : lineFeed ∉ canonicalizeQuery search := by
  refine not_mem_joined (by decide) fun piece hpiece => ?_
  obtain ⟨entry, _, rfl⟩ := List.mem_map.mp hpiece
  exact not_mem_encodeEntry (by decide) (by decide) entry

/-! ## Numbers and digits -/

theorem toNat_decimal {n : ℕ} (h : u ∈ decimal n) :
    0x30 ≤ u.toNat ∧ u.toNat ≤ 0x39 := by
  obtain ⟨d, hd, rfl⟩ := List.mem_map.mp h
  have hlt := Bytes.digits_lt hd
  rw [Utf16.toNat_ofNat (by omega)]
  omega

/-- The number of a decimal. -/
theorem value_decimal (n : ℕ) : Bytes.value ((decimal n).map fun u => u.toNat - 48) = n := by
  have hdigits : (decimal n).map (fun u => u.toNat - 48) = Bytes.digits n := by
    unfold decimal
    rw [List.map_map]
    refine (List.map_congr_left fun d hd => ?_).trans (List.map_id _)
    have hlt := Bytes.digits_lt hd
    show (UInt16.ofNat (48 + d)).toNat - 48 = d
    rw [Utf16.toNat_ofNat (by omega), Nat.add_sub_cancel_left]
  rw [hdigits, Bytes.value_digits]

theorem decimal_injective : Function.Injective decimal := by
  intro n m h
  rw [← value_decimal n, h, value_decimal]

theorem not_mem_decimal (h : u.toNat < 0x30) (n : ℕ) : u ∉ decimal n := by
  intro hmem
  have hdigit := toNat_decimal hmem
  omega

theorem bytesToHex_hex (bytes : List UInt8) : ∀ u ∈ bytesToHex bytes, isHex u = true := by
  have hdigit : ∀ n < 16, isHex (lowerHex n) = true := by decide
  intro u hu
  obtain ⟨b, _, hb⟩ := List.mem_flatMap.mp hu
  have hlt := b.toNat_lt
  rw [List.mem_cons, List.mem_singleton] at hb
  obtain rfl | rfl := hb
  · exact hdigit _ (by omega)
  · exact hdigit _ (by omega)

theorem length_bytesToHex (bytes : List UInt8) :
    (bytesToHex bytes).length = 2 * bytes.length := by
  induction bytes with
  | nil => rfl
  | cons b bytes ih =>
    show (bytesToHex bytes).length + 2 = _
    rw [ih, List.length_cons]
    omega

theorem not_mem_hex {t : Text} (hu : isHex u = false) (h : ∀ v ∈ t, isHex v = true) : u ∉ t := by
  intro hmem
  rw [h u hmem] at hu
  exact Bool.false_ne_true hu.symm

/-! ## The canonical string -/

/-- A request to sign: the nonce and the hash are hexadecimal, and the method and the name of
the service are on one line. -/
structure SignedRequest where
  service : Text
  service_line : lineFeed ∉ service
  timestampMs : ℕ
  nonce : Text
  nonce_hex : ∀ u ∈ nonce, isHex u = true
  method : Text
  method_line : lineFeed ∉ method
  url : Url
  bodySha256Hex : Text
  hash_hex : ∀ u ∈ bodySha256Hex, isHex u = true
  actor : Text

/-- The string that is signed for it. -/
def SignedRequest.canonical (platform : Platform) (p : SignedRequest) : Text :=
  buildCanonicalRequestString platform {
    service := p.service
    timestampMs := p.timestampMs
    nonce := p.nonce
    method := p.method
    pathname := p.url.pathname
    canonicalQuery := canonicalizeQuery p.url.search
    bodySha256Hex := p.bodySha256Hex
    actor := p.actor }

/-- The fields that a signature binds; methods are the same up to letter case. -/
structure SameRequest (platform : Platform) (p q : SignedRequest) : Prop where
  service : p.service = q.service
  timestampMs : p.timestampMs = q.timestampMs
  nonce : p.nonce = q.nonce
  method : platform.toUpperCase p.method = platform.toUpperCase q.method
  pathname : p.url.pathname = q.url.pathname
  entries : (searchEntries p.url.search).Perm (searchEntries q.url.search)
  bodySha256Hex : p.bodySha256Hex = q.bodySha256Hex
  actor : p.actor = q.actor

theorem canonical_fields {p q : SignedRequest}
    (h : p.canonical platform = q.canonical platform) : SameRequest platform p q := by
  have hhex : ∀ {t : Text}, (∀ u ∈ t, isHex u = true) → lineFeed ∉ t :=
    fun ht => not_mem_hex (by decide) ht
  have hdecimal := not_mem_decimal (show lineFeed.toNat < 0x30 by decide)
  unfold SignedRequest.canonical buildCanonicalRequestString at h
  have htag := (line_inj (by decide) (by decide) h).2
  obtain ⟨hservice, hrest⟩ := line_inj p.service_line q.service_line htag
  obtain ⟨htimestamp, hrest⟩ := line_inj (hdecimal _) (hdecimal _) hrest
  obtain ⟨hnonce, hrest⟩ := line_inj (hhex p.nonce_hex) (hhex q.nonce_hex) hrest
  obtain ⟨hmethod, hrest⟩ := line_inj (platform.upper_line _ p.method_line)
    (platform.upper_line _ q.method_line) hrest
  obtain ⟨hpathname, hrest⟩ := line_inj p.url.pathname_line q.url.pathname_line hrest
  obtain ⟨hquery, hrest⟩ := line_inj (canonicalizeQuery_line _) (canonicalizeQuery_line _) hrest
  obtain ⟨hhash, hactor⟩ := line_inj (hhex p.hash_hex) (hhex q.hash_hex) hrest
  exact {
    service := hservice
    timestampMs := decimal_injective htimestamp
    nonce := hnonce
    method := hmethod
    pathname := hpathname
    entries := perm_of_canonicalizeQuery hquery
    bodySha256Hex := hhash
    actor := hactor }

/-! ## Built headers -/

theorem length_decimal {n : ℕ} (hpos : 0 < n) (hlt : n < 10 ^ 16) : (decimal n).length ≤ 16 := by
  unfold decimal Bytes.digits
  rw [List.length_map, if_neg (by omega), List.length_reverse]
  exact (Nat.digits_length_le_iff (by decide) n).mpr hlt

theorem decimal_pattern {n : ℕ} (hpos : 0 < n) (hlt : n < 10 ^ 16) :
    timestampPattern (decimal n) = true := by
  have hne : decimal n ≠ [] := by
    unfold decimal
    rw [ne_eq, List.map_eq_nil_iff]
    exact Bytes.digits_ne_nil n
  unfold timestampPattern
  rw [Bool.and_eq_true, Bool.and_eq_true, decide_eq_true_eq, decide_eq_true_eq, List.all_eq_true]
  refine ⟨⟨hne, length_decimal hpos hlt⟩, fun u hu => ?_⟩
  have hdigit := toNat_decimal hu
  unfold isDigit
  rw [Bool.and_eq_true, decide_eq_true_eq, decide_eq_true_eq]
  exact hdigit

theorem number_decimal {n : ℕ} (hlt : n < 2 ^ 53) : number (decimal n) = n := by
  unfold number
  rw [value_decimal]
  exact if_pos (Or.inl hlt)

variable {random : List UInt8}

theorem nonce_pattern (h : random.length = 8) :
    noncePattern (generateNonce random) = true := by
  have hlength : (generateNonce random).length = 16 := by
    unfold generateNonce
    rw [length_bytesToHex, h]
  unfold noncePattern
  rw [Bool.and_eq_true, Bool.and_eq_true, decide_eq_true_eq, decide_eq_true_eq, hlength]
  refine ⟨⟨fun he => ?_, by decide⟩, List.all_eq_true.mpr (bytesToHex_hex random)⟩
  rw [he] at hlength
  exact absurd hlength (by decide)

theorem difference_self (t : Text) : difference t t = 0 := by
  induction t with
  | nil => rfl
  | cons u t ih => rw [difference, ih, Nat.xor_self, Nat.or_zero]

theorem timingSafeEqual_self (t : Text) : timingSafeEqual t t = true := by
  unfold timingSafeEqual
  rw [difference_self, Bool.and_eq_true, decide_eq_true_eq, decide_eq_true_eq]
  exact ⟨rfl, rfl⟩

/-- The parts of a built header are read back while it is fresh. -/
theorem parse_built {now : ℕ} {later : ℤ} {signature : Text} (hpos : 0 < now)
    (hdate : now ≤ 8640000000000000) (hrandom : random.length = 8)
    (hhex : ∀ u ∈ signature, isHex u = true) (hlength : signature.length = 64)
    (hfresh : |later - now| ≤ tokenValidityMs) :
    parseServiceSignatureHeader later
        (sig1 ++ dot :: (decimal now ++ dot :: (generateNonce random ++ dot :: signature))) =
      .ok { timestampMs := now, nonce := generateNonce random, signature } := by
  have hparts : ([dot].intercalate [sig1, decimal now, generateNonce random, signature]).splitOn
      dot = [sig1, decimal now, generateNonce random, signature] := by
    refine List.splitOn_intercalate dot ?_ (List.cons_ne_nil _ _)
    rw [List.forall_mem_cons, List.forall_mem_cons, List.forall_mem_cons, List.forall_mem_cons]
    exact ⟨by decide, not_mem_decimal (by decide) now,
      not_mem_hex (by decide) (bytesToHex_hex random), not_mem_hex (by decide) hhex,
      List.forall_mem_nil _⟩
  have hheader : [dot].intercalate [sig1, decimal now, generateNonce random, signature] =
      sig1 ++ dot :: (decimal now ++ dot :: (generateNonce random ++ dot :: signature)) := by
    rw [List.intercalate_cons_cons, List.intercalate_cons_cons, List.intercalate_cons_cons,
      List.intercalate_singleton, List.append_assoc, List.append_assoc, List.append_assoc]
    rfl
  have hsignature : (decide (signature.length = 64) && signature.all isHex) = true := by
    rw [Bool.and_eq_true, decide_eq_true_eq, List.all_eq_true]
    exact ⟨hlength, hhex⟩
  rw [hheader] at hparts
  unfold parseServiceSignatureHeader
  rw [hparts]
  dsimp only
  rw [if_neg (not_not.mpr rfl), decimal_pattern hpos (by omega), number_decimal (by omega),
    nonce_pattern hrandom, hsignature, if_neg (by decide), if_neg (by omega),
    if_neg (by decide), if_neg (by omega)]

/-- The request as its receiver sees it. -/
def OutboundRequest.received (platform : Platform) (p : OutboundRequest)
    (signatureHeader : Text) : InboundRequest where
  signatureHeader := signatureHeader
  service := p.service
  secret := p.secret
  method := p.method
  url := p.url
  bodySha256Hex := sha256Hex platform (p.body.getD (.text []))
  actor := p.actor.getD []

theorem computeHmacHex_hex {data secret signature : Text}
    (h : computeHmacHex platform data secret = some signature) :
    (∀ u ∈ signature, isHex u = true) ∧ signature.length = 64 := by
  obtain ⟨mac, hmac, rfl⟩ := Option.map_eq_some_iff.mp h
  refine ⟨bytesToHex_hex mac, ?_⟩
  rw [length_bytesToHex, platform.hmac_length _ _ mac hmac]

theorem verify_built {now : ℕ} {later : ℤ} {p : OutboundRequest} {headers : List (String × Text)}
    {header : Text} (hpos : 0 < now) (hdate : now ≤ 8640000000000000) (hrandom : random.length = 8)
    (hbuilt : buildServiceAuthHeaders platform now random p = some headers)
    (hheader : headers.lookup "X-OpenInspect-Service-Signature" = some header)
    (hfresh : |later - now| ≤ tokenValidityMs) :
    verifyServiceSignature platform later (p.received platform header) =
      some (.ok (now, generateNonce random)) := by
  obtain ⟨signature, hsign, hbuilt⟩ := Option.bind_eq_some_iff.mp hbuilt
  have hsigned := hsign
  unfold signCanonicalRequest at hsigned
  obtain ⟨url, _, hmac⟩ := Option.bind_eq_some_iff.mp hsigned
  obtain ⟨hhex, hlength⟩ := computeHmacHex_hex hmac
  obtain rfl := Option.some.inj hbuilt
  obtain rfl := Option.some.inj hheader
  unfold verifyServiceSignature OutboundRequest.received
  dsimp only
  rw [parse_built hpos hdate hrandom hhex hlength hfresh]
  dsimp only
  rw [hsign]
  show (if (!timingSafeEqual signature signature) = true then _ else _) = _
  rw [timingSafeEqual_self, if_neg (by decide)]
  rfl

/-! ## What a signature identifies -/

/-- A canonical string identifies the request, its query up to the order of the entries; two
queries with the same entries have the same string exactly where entries with one joined key
stand in one order; and a fresh header is accepted for the request it was built for. -/
theorem service_signatures (platform : Platform) :
    (∀ p q : SignedRequest, p.canonical platform = q.canonical platform →
      SameRequest platform p q) ∧
    (∀ search search' : Text,
      (canonicalizeQuery search = canonicalizeQuery search' ↔
        (searchEntries search).Perm (searchEntries search')) ↔
      ¬ (searchEntries search).Perm (searchEntries search') ∨
        SameOrder (searchEntries search) (searchEntries search')) ∧
    ∀ (now : ℕ) (later : ℤ) (random : List UInt8) (p : OutboundRequest)
      (headers : List (String × Text)) (header : Text),
      0 < now → now ≤ 8640000000000000 → random.length = 8 →
      buildServiceAuthHeaders platform now random p = some headers →
      headers.lookup "X-OpenInspect-Service-Signature" = some header →
      |later - now| ≤ tokenValidityMs →
      verifyServiceSignature platform later (p.received platform header) =
        some (.ok (now, generateNonce random)) := by
  refine ⟨fun p q h => canonical_fields h, fun search search' => ?_,
    fun now later random p headers header hpos hdate hrandom hbuilt hheader hfresh =>
      verify_built hpos hdate hrandom hbuilt hheader hfresh⟩
  rw [canonicalizeQuery_eq]
  constructor
  · intro h
    by_cases hperm : (searchEntries search).Perm (searchEntries search')
    · exact Or.inr (h.mpr hperm)
    · exact Or.inl hperm
  · intro h
    constructor
    · exact fun hsame => perm_of_canonicalizeQuery (canonicalizeQuery_eq.mpr hsame)
    · intro hperm
      exact h.resolve_left fun hne => hne hperm

/-! ## A request of the golden vectors -/

/-- SHA-256 of the empty text -/
def goldenDigest : List UInt8 :=
  [0xe3, 0xb0, 0xc4, 0x42, 0x98, 0xfc, 0x1c, 0x14, 0x9a, 0xfb, 0xf4, 0xc8, 0x99, 0x6f, 0xb9, 0x24,
   0x27, 0xae, 0x41, 0xe4, 0x64, 0x9b, 0x93, 0x4c, 0xa4, 0x95, 0x99, 0x1b, 0x78, 0x52, 0xb8, 0x55]

def goldenMac : List UInt8 :=
  [0x88, 0xbe, 0xbd, 0xdc, 0xda, 0x35, 0xdb, 0x8f, 0xdd, 0x86, 0x99, 0x2e, 0x8d, 0x01, 0x0b, 0xe6,
   0xda, 0x11, 0x14, 0xad, 0x77, 0x73, 0xff, 0xfc, 0x85, 0xed, 0xd3, 0xc0, 0x26, 0xb4, 0x28, 0xe7]

def goldenUrl : Text := ascii
  ['h', 't', 't', 'p', 's', ':', '/', '/', 'c', 'o', 'n', 't', 'r', 'o', 'l', '-', 'p', 'l', 'a',
   'n', 'e', '.', 'e', 'x', 'a', 'm', 'p', 'l', 'e', '.', 'c', 'o', 'm', '/', 's', 'e', 's', 's',
   'i', 'o', 'n', 's']

def upperAscii (u : UInt16) : UInt16 :=
  if 0x61 ≤ u.toNat ∧ u.toNat ≤ 0x7a then u - 0x20 else u

theorem upperAscii_line {t : Text} (h : lineFeed ∉ t) : lineFeed ∉ t.map upperAscii := by
  intro hmem
  obtain ⟨u, hu, he⟩ := List.mem_map.mp hmem
  unfold upperAscii at he
  split at he
  next hlower =>
    have hback : u = lineFeed + 0x20 := by rw [← he, UInt16.sub_add_cancel]
    rw [hback] at hlower
    exact absurd hlower (by decide)
  next => exact h (he ▸ hu)

/-- What the platform computes for the first of the golden vectors. -/
def goldenPlatform : Platform where
  parseUrl url :=
    if url = goldenUrl then
      some ⟨ascii ['/', 's', 'e', 's', 's', 'i', 'o', 'n', 's'], [], by decide⟩
    else none
  toUpperCase t := t.map upperAscii
  upper_line _ h := upperAscii_line h
  digest _ := goldenDigest
  hmac _ _ := some goldenMac
  hmac_length := by
    intro _ _ mac hmac
    obtain rfl := Option.some.inj hmac
    rfl

def goldenRequest : OutboundRequest where
  service := ascii ['w', 'e', 'b']
  secret := ascii ['w', 'e', 'b', '-', 's', 'e', 'c', 'r', 'e', 't', '-', '0', '0', '0', '1']
  method := ascii ['G', 'E', 'T']
  url := goldenUrl

def goldenRandom : List UInt8 := [0x01, 0x23, 0x45, 0x67, 0x89, 0xab, 0xcd, 0xef]

/-- A header of the golden vectors is accepted a second later. -/
theorem golden_header_accepted :
    verifyServiceSignature goldenPlatform 1753142401000
        (goldenRequest.received goldenPlatform (sig1 ++ dot :: (decimal 1753142400000 ++
          dot :: (generateNonce goldenRandom ++ dot :: bytesToHex goldenMac)))) =
      some (.ok (1753142400000, generateNonce goldenRandom)) :=
  (service_signatures goldenPlatform).2.2 1753142400000 1753142401000 goldenRandom goldenRequest _ _
    (by decide) (by decide) rfl rfl rfl (by decide)

/-- `?a%00b=c&a=b%00c` and `?a=b%00c&a%00b=c`: the joined keys are the same, and the sort
leaves the entries where they stand. -/
theorem tied_entries_apart :
    let search : Text := ascii
      ['?', 'a', '%', '0', '0', 'b', '=', 'c', '&', 'a', '=', 'b', '%', '0', '0', 'c']
    let turned : Text := ascii
      ['?', 'a', '=', 'b', '%', '0', '0', 'c', '&', 'a', '%', '0', '0', 'b', '=', 'c']
    (searchEntries search).Perm (searchEntries turned) ∧
      canonicalizeQuery search ≠ canonicalizeQuery turned := by
  decide +kernel

end BackgroundAgents.Services

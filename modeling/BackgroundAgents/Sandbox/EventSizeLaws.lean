import BackgroundAgents.Sandbox.EventSize

/-!
# What the cuts leave of an event

`fitJsonString_spec`: the binary search finds the longest prefix that fits.
`mem_argStrings` and `argStrings_complete`: the candidates are the strings that are not
empty and do not stand under the key of a path. No two stand in one place
(`argStrings_places`), so that a cut leaves the other candidates as they were.
-/

namespace BackgroundAgents.Sandbox.EventSize

open Json (textSize getAt setAt)

/-! ## The longest prefix that fits -/

theorem fitSearch_spec (text : Text) {maxBytes : Int} (low high : Nat) (h : low ≤ high)
    (hlow : (textSize (text.take low) : Int) ≤ maxBytes)
    (hhigh : ∀ n, high < n → n ≤ text.length → maxBytes < textSize (text.take n)) :
    (textSize (text.take (fitSearch text maxBytes low high)) : Int) ≤ maxBytes ∧
      ∀ n, fitSearch text maxBytes low high < n → n ≤ text.length →
        maxBytes < textSize (text.take n) := by
  rw [fitSearch]
  split
  next hlt =>
    dsimp only
    split
    next hfits => exact fitSearch_spec text _ high (by omega) hfits hhigh
    next hfits =>
      refine fitSearch_spec text low _ (by omega) hlow ?_
      intro n hn hlength
      -- what does not fit at the middle does not fit beyond it
      have hinitial : text.take ((low + high + 1) / 2) <+: text.take n :=
        List.take_prefix_take_left (by omega)
      have hmono := Json.textSize_mono hinitial
      omega
  next hlt =>
    obtain rfl : low = high := by omega
    exact ⟨hlow, hhigh⟩
termination_by high - low

theorem fitJsonString_initial (text : Text) (maxBytes : Int) : fitJsonString text maxBytes <+: text :=
  List.take_prefix _ text

theorem fitJsonString_spec (text : Text) {maxBytes : Int} (h : 2 ≤ maxBytes) :
    (textSize (fitJsonString text maxBytes) : Int) ≤ maxBytes ∧
      ∀ p, p <+: text → (textSize p : Int) ≤ maxBytes → p <+: fitJsonString text maxBytes := by
  have hempty : (textSize (text.take 0) : Int) ≤ maxBytes := by
    rw [List.take_zero, Json.textSize_nil]
    exact h
  obtain ⟨hfits, hlongest⟩ := fitSearch_spec text 0 text.length (Nat.zero_le _) hempty
    fun n hn hlength => absurd hlength (by omega)
  refine ⟨hfits, ?_⟩
  intro p hp hsize
  by_cases hle : p.length ≤ fitSearch text maxBytes 0 text.length
  · rw [List.prefix_iff_eq_take.mp hp]
    exact List.take_prefix_take_left hle
  · have hlt := hlongest p.length (by omega) hp.length_le
    rw [← List.prefix_iff_eq_take.mp hp] at hlt
    omega

/-! ## The candidates -/

section Candidates

variable {lower : Text → Text}

theorem filledText_some {child : Json} {text : Text} (h : filledText child = some text) :
    child = .str text ∧ text ≠ [] := by
  unfold filledText at h
  split at h
  next c t =>
    obtain rfl := Option.some.inj h
    exact ⟨rfl, List.cons_ne_nil _ _⟩
  next => cases h

variable (lower) in
/-- The place is inside a container, and not that of a path. -/
def NonPath : Json → List Nat → Prop
  | .obj entries, i :: place => ∃ entry, entries[i]? = some entry ∧
    (place = [] ∧ isPathKey lower entry.1 = false ∨ NonPath entry.2 place)
  | .arr items, i :: place => ∃ item, items[i]? = some item ∧ (place = [] ∨ NonPath item place)
  | _, _ => False
termination_by structural _ place => place

variable (lower) in
/-- The candidate says what stands in its place, which is not that of a path. -/
def Candidate.Stands (c : Candidate) (value : Json) : Prop :=
  getAt value c.place = some (.str c.text) ∧ c.text ≠ [] ∧ NonPath lower value c.place

variable (lower) in
/-- What a candidate says of the child that it is in. -/
def StandsIn (place : List Nat) (text : Text) (child : Json) (free : Prop) : Prop :=
  getAt child place = some (.str text) ∧ text ≠ [] ∧
    (place = [] ∧ free ∨ NonPath lower child place)

theorem standsIn_text {child : Json} {text : Text} {free : Prop} (h : filledText child = some text)
    (hfree : free) : StandsIn lower [] text child free :=
  ⟨congrArg some (filledText_some h).1, (filledText_some h).2, .inl ⟨rfl, hfree⟩⟩

theorem Candidate.Stands.standsIn {c : Candidate} {child : Json} (h : c.Stands lower child)
    (free : Prop) : StandsIn lower c.place c.text child free :=
  ⟨h.1, h.2.1, .inr h.2.2⟩

mutual

theorem mem_argStrings : ∀ (value : Json) (location : Text) {c : Candidate},
    c ∈ argStrings lower value location → c.Stands lower value
  | .obj entries, location, c, h => by
    obtain ⟨k, place, hplace, entry, hentry, hget, hne, hfree⟩ :=
      mem_entryStrings entries 0 location h
    rw [Nat.zero_add] at hplace
    unfold Candidate.Stands
    rw [hplace]
    refine ⟨?_, hne, entry, hentry, hfree⟩
    show (entries[k]?.bind fun entry => getAt entry.2 place) = _
    rw [hentry]
    exact hget
  | .arr items, location, c, h => by
    obtain ⟨k, place, hplace, item, hitem, hget, hne, hfree⟩ := mem_itemStrings items 0 location h
    rw [Nat.zero_add] at hplace
    unfold Candidate.Stands
    rw [hplace]
    refine ⟨?_, hne, item, hitem, hfree.imp_left And.left⟩
    show (items[k]?.bind fun value => getAt value place) = _
    rw [hitem]
    exact hget
  | .null, _, _, h => by cases h
  | .bool _, _, _, h => by cases h
  | .num _, _, _, h => by cases h
  | .str _, _, _, h => by cases h

theorem mem_entryStrings : ∀ (entries : List (Text × Json)) (i : Nat) (location : Text)
    {c : Candidate}, c ∈ entryStrings lower entries i location →
      ∃ k place, c.place = (i + k) :: place ∧ ∃ entry, entries[k]? = some entry ∧
        StandsIn lower place c.text entry.2 (isPathKey lower entry.1 = false)
  | [], _, _, _, h => by cases h
  | (key, child) :: rest, i, location, c, h => by
    rw [entryStrings] at h
    rcases List.mem_append.mp h with hhere | hrest
    · split at hhere
      next text htext =>
        split at hhere
        next => cases hhere
        next hkey =>
          rw [List.mem_singleton.mp hhere]
          exact ⟨0, [], rfl, _, rfl, standsIn_text htext (Bool.eq_false_iff.mpr hkey)⟩
      next =>
        obtain ⟨c, hc, rfl⟩ := List.mem_map.mp hhere
        exact ⟨0, c.place, rfl, _, rfl, (mem_argStrings child _ hc).standsIn _⟩
    · obtain ⟨k, place, hplace, entry, hentry, hstands⟩ := mem_entryStrings rest (i + 1) location
        hrest
      refine ⟨k + 1, place, ?_, entry, hentry, hstands⟩
      rw [hplace, Nat.add_right_comm, Nat.add_assoc]

theorem mem_itemStrings : ∀ (items : List Json) (i : Nat) (location : Text)
    {c : Candidate}, c ∈ itemStrings lower items i location →
      ∃ k place, c.place = (i + k) :: place ∧ ∃ item, items[k]? = some item ∧
        StandsIn lower place c.text item True
  | [], _, _, _, h => by cases h
  | child :: rest, i, location, c, h => by
    rw [itemStrings] at h
    rcases List.mem_append.mp h with hhere | hrest
    · split at hhere
      next text htext =>
        rw [List.mem_singleton.mp hhere]
        exact ⟨0, [], rfl, _, rfl, standsIn_text htext trivial⟩
      next =>
        obtain ⟨c, hc, rfl⟩ := List.mem_map.mp hhere
        exact ⟨0, c.place, rfl, _, rfl, (mem_argStrings child _ hc).standsIn _⟩
    · obtain ⟨k, place, hplace, item, hitem, hstands⟩ := mem_itemStrings rest (i + 1) location
        hrest
      refine ⟨k + 1, place, ?_, item, hitem, hstands⟩
      rw [hplace, Nat.add_right_comm, Nat.add_assoc]

end

theorem filledText_str {text : Text} (h : text ≠ []) : filledText (.str text) = some text := by
  cases text with
  | nil => exact absurd rfl h
  | cons c text => rfl

/-- Only a container has places inside. -/
theorem NonPath.container {child : Json} {place : List Nat} (h : NonPath lower child place) :
    child.isScalar = false := by
  cases child with
  | arr items => rfl
  | obj entries => rfl
  | null => cases place with
    | nil => cases h
    | cons i place => cases h
  | bool b => cases place with
    | nil => cases h
    | cons i place => cases h
  | num text => cases place with
    | nil => cases h
    | cons i place => cases h
  | str text => cases place with
    | nil => cases h
    | cons i place => cases h

theorem filledText_none {child : Json} {place : List Nat} (h : NonPath lower child place) :
    filledText child = none := by
  have hcontainer := h.container
  cases child with
  | str text => cases hcontainer
  | null => rfl
  | bool b => rfl
  | num text => rfl
  | arr items => rfl
  | obj entries => rfl

mutual

theorem argStrings_complete : ∀ (value : Json) (location : Text) {place : List Nat} {text : Text},
    getAt value place = some (.str text) → text ≠ [] → NonPath lower value place →
      ∃ c ∈ argStrings lower value location, c.place = place ∧ c.text = text
  | .obj entries, location, i :: place, text, hget, hne, hfree => by
    obtain ⟨entry, hentry, hfree⟩ := hfree
    have hget : (entries[i]?.bind fun entry => getAt entry.2 place) = some (.str text) := hget
    rw [hentry] at hget
    have hin : StandsIn lower place text entry.2 (isPathKey lower entry.1 = false) :=
      ⟨hget, hne, hfree⟩
    obtain ⟨c, hc, hplace, htext⟩ := entryStrings_complete entries 0 location hentry hin
    exact ⟨c, hc, by rw [hplace, Nat.zero_add], htext⟩
  | .arr items, location, i :: place, text, hget, hne, hfree => by
    obtain ⟨item, hitem, hfree⟩ := hfree
    have hget : (items[i]?.bind fun value => getAt value place) = some (.str text) := hget
    rw [hitem] at hget
    have hin : StandsIn lower place text item True :=
      ⟨hget, hne, hfree.imp_left fun h => ⟨h, trivial⟩⟩
    obtain ⟨c, hc, hplace, htext⟩ := itemStrings_complete items 0 location hitem hin
    exact ⟨c, hc, by rw [hplace, Nat.zero_add], htext⟩
  | .obj _, _, [], _, _, _, hfree => by cases hfree
  | .arr _, _, [], _, _, _, hfree => by cases hfree
  | .null, _, _, _, _, _, hfree => by cases hfree.container
  | .bool _, _, _, _, _, _, hfree => by cases hfree.container
  | .num _, _, _, _, _, _, hfree => by cases hfree.container
  | .str _, _, _, _, _, _, hfree => by cases hfree.container

theorem entryStrings_complete : ∀ (entries : List (Text × Json)) (i : Nat) (location : Text)
    {k : Nat} {place : List Nat} {text : Text} {entry : Text × Json}, entries[k]? = some entry →
      StandsIn lower place text entry.2 (isPathKey lower entry.1 = false) →
        ∃ c ∈ entryStrings lower entries i location, c.place = (i + k) :: place ∧ c.text = text
  | [], _, _, _, _, _, _, hentry, _ => by cases hentry
  | (key, child) :: rest, i, location, 0, place, text, entry, hentry, hin => by
    obtain rfl : (key, child) = entry := Option.some.inj hentry
    obtain ⟨hget, hne, hfree⟩ := hin
    rw [entryStrings]
    rcases hfree with ⟨rfl, hkey⟩ | hfree
    · obtain rfl : child = .str text := Option.some.inj hget
      have hkey : ¬ isPathKey lower key = true := Bool.eq_false_iff.mp hkey
      rw [filledText_str hne]
      dsimp only
      rw [if_neg hkey]
      exact ⟨_, List.mem_append_left _ (List.mem_singleton_self _), rfl, rfl⟩
    · obtain ⟨c, hc, rfl, rfl⟩ := argStrings_complete child
        (location ++ asText "." ++ key) hget hne hfree
      rw [filledText_none hfree]
      exact ⟨_, List.mem_append_left _ (List.mem_map.mpr ⟨c, hc, rfl⟩), rfl, rfl⟩
  | (key, child) :: rest, i, location, k + 1, place, text, entry, hentry, hin => by
    obtain ⟨c, hc, hplace, htext⟩ := entryStrings_complete rest (i + 1) location (k := k) hentry hin
    rw [entryStrings]
    refine ⟨c, List.mem_append_right _ hc, ?_, htext⟩
    rw [hplace, Nat.add_right_comm, Nat.add_assoc]

theorem itemStrings_complete : ∀ (items : List Json) (i : Nat) (location : Text)
    {k : Nat} {place : List Nat} {text : Text} {item : Json}, items[k]? = some item →
      StandsIn lower place text item True →
        ∃ c ∈ itemStrings lower items i location, c.place = (i + k) :: place ∧ c.text = text
  | [], _, _, _, _, _, _, hitem, _ => by cases hitem
  | child :: rest, i, location, 0, place, text, item, hitem, hin => by
    obtain rfl : child = item := Option.some.inj hitem
    obtain ⟨hget, hne, hfree⟩ := hin
    rw [itemStrings]
    rcases hfree with ⟨rfl, _⟩ | hfree
    · obtain rfl : child = .str text := Option.some.inj hget
      rw [filledText_str hne]
      exact ⟨_, List.mem_append_left _ (List.mem_singleton_self _), rfl, rfl⟩
    · obtain ⟨c, hc, rfl, rfl⟩ := argStrings_complete child
        (location ++ asText "[" ++ (Nat.toDigits 10 i).map Char.toNat ++ asText "]") hget hne hfree
      rw [filledText_none hfree]
      exact ⟨_, List.mem_append_left _ (List.mem_map.mpr ⟨c, hc, rfl⟩), rfl, rfl⟩
  | child :: rest, i, location, k + 1, place, text, item, hitem, hin => by
    obtain ⟨c, hc, hplace, htext⟩ := itemStrings_complete rest (i + 1) location (k := k) hitem hin
    rw [itemStrings]
    refine ⟨c, List.mem_append_right _ hc, ?_, htext⟩
    rw [hplace, Nat.add_right_comm, Nat.add_assoc]

end

/-- The candidates of one child, and those of the children after it. -/
theorem places_append {i : Nat} {here rest : List Candidate}
    (hhere : ((here.map Candidate.place).Nodup ∧ ∀ c ∈ here, ∃ place, c.place = i :: place))
    (hrest : (rest.map Candidate.place).Nodup)
    (hlater : ∀ c ∈ rest, ∃ k place, c.place = (i + 1 + k) :: place) :
    ((here ++ rest).map Candidate.place).Nodup := by
  rw [List.map_append, List.nodup_append]
  refine ⟨hhere.1, hrest, ?_⟩
  intro a ha b hb he
  obtain ⟨c, hc, rfl⟩ := List.mem_map.mp ha
  obtain ⟨d, hd, rfl⟩ := List.mem_map.mp hb
  obtain ⟨place, hplace⟩ := hhere.2 c hc
  obtain ⟨k, place', hplace'⟩ := hlater d hd
  rw [hplace, hplace'] at he
  have hhead := (List.cons.inj he).1
  omega

theorem places_below {i : Nat} {cs : List Candidate} (h : (cs.map Candidate.place).Nodup) :
    ((cs.map (Candidate.below i)).map Candidate.place).Nodup ∧
      ∀ c ∈ cs.map (Candidate.below i), ∃ place, c.place = i :: place := by
  constructor
  · rw [List.map_map]
    have hmap : cs.map (Candidate.place ∘ Candidate.below i) =
        (cs.map Candidate.place).map (i :: ·) := by
      rw [List.map_map]
      rfl
    rw [hmap]
    exact h.map fun a b he => (List.cons.inj he).2
  · intro c hc
    obtain ⟨d, _, rfl⟩ := List.mem_map.mp hc
    exact ⟨d.place, rfl⟩

theorem places_one {i : Nat} {path text : Text} :
    (([{ place := [i], path, text }] : List Candidate).map Candidate.place).Nodup ∧
      ∀ c ∈ ([{ place := [i], path, text }] : List Candidate), ∃ place, c.place = i :: place :=
  ⟨List.nodup_singleton _, fun c hc => ⟨[], by rw [List.mem_singleton.mp hc]⟩⟩

mutual

/-- No two candidates stand in one place. -/
theorem argStrings_places : ∀ (value : Json) (location : Text),
    ((argStrings lower value location).map Candidate.place).Nodup
  | .obj entries, location => entryStrings_places entries 0 location
  | .arr items, location => itemStrings_places items 0 location
  | .null, _ => List.nodup_nil
  | .bool _, _ => List.nodup_nil
  | .num _, _ => List.nodup_nil
  | .str _, _ => List.nodup_nil

theorem entryStrings_places : ∀ (entries : List (Text × Json)) (i : Nat) (location : Text),
    ((entryStrings lower entries i location).map Candidate.place).Nodup
  | [], _, _ => List.nodup_nil
  | (key, child) :: rest, i, location => by
    rw [entryStrings]
    refine places_append (i := i) ?_ (entryStrings_places rest (i + 1) location) ?_
    · split
      next =>
        split
        next => exact ⟨List.nodup_nil, fun c hc => absurd hc List.not_mem_nil⟩
        next => exact places_one
      next => exact places_below (argStrings_places child _)
    · intro c hc
      obtain ⟨k, place, hplace, _⟩ := mem_entryStrings rest (i + 1) location hc
      exact ⟨k, place, hplace⟩

theorem itemStrings_places : ∀ (items : List Json) (i : Nat) (location : Text),
    ((itemStrings lower items i location).map Candidate.place).Nodup
  | [], _, _ => List.nodup_nil
  | child :: rest, i, location => by
    rw [itemStrings]
    refine places_append (i := i) ?_ (itemStrings_places rest (i + 1) location) ?_
    · split
      next => exact places_one
      next => exact places_below (argStrings_places child _)
    · intro c hc
      obtain ⟨k, place, hplace, _⟩ := mem_itemStrings rest (i + 1) location hc
      exact ⟨k, place, hplace⟩

end

theorem candidates_perm (lower : Text → Text) (args : Json) :
    (candidates lower args).Perm (argStrings lower args (asText "args")) :=
  List.mergeSort_perm _ _

end Candidates

end BackgroundAgents.Sandbox.EventSize

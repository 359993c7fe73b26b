import Mathlib.Data.List.Basic
import Mathlib.Algebra.BigOperators.Group.List.Basic
import BackgroundAgents.Lib.Dictionaries

/-!
# JSON values and their encoded size

`Json.dumps` writes a value in ASCII, as `json.dumps` does: a character outside it
takes six characters or twelve. A text is the list of its code points, a number the
characters that it is written with.

What replacing one value does to the size of the whole is the difference of the two
(`size_setAt` inside a value, `size_set` at a key of an object), so a program which
keeps count of a size need not encode again.
-/

namespace BackgroundAgents

inductive Json where
  | null
  | bool (b : Bool)
  | num (text : List Char)
  | str (text : List Nat)
  | arr (items : List Json)
  | obj (entries : List (List Nat × Json))

namespace Json

/-- What stands between items, and between a key and its value. -/
structure Separators where
  item : List Char
  key : List Char

/-- `json.dumps(…)` -/
def spaced : Separators := { item := [',', ' '], key := [':', ' '] }

/-- `json.dumps(…, separators=(",", ":"))` -/
def compact : Separators := { item := [','], key := [':'] }

/-! ## Encoding -/

def hexDigit (n : Nat) : Char := Char.ofNat (if n < 10 then 48 + n else 87 + n)

/-- The escape of a UTF-16 unit. -/
def escapeUnit (n : Nat) : List Char :=
  ['\\', 'u', hexDigit (n / 4096 % 16), hexDigit (n / 256 % 16), hexDigit (n / 16 % 16),
    hexDigit (n % 16)]

def escapePoint (c : Nat) : List Char :=
  if c = 0x22 then ['\\', '"']
  else if c = 0x5c then ['\\', '\\']
  else if c = 0x0a then ['\\', 'n']
  else if c = 0x0d then ['\\', 'r']
  else if c = 0x09 then ['\\', 't']
  else if c = 0x08 then ['\\', 'b']
  else if c = 0x0c then ['\\', 'f']
  else if 0x20 ≤ c ∧ c ≤ 0x7e then [Char.ofNat c]
  else if c < 0x10000 then escapeUnit c
  else escapeUnit (0xd800 + (c - 0x10000) / 1024) ++ escapeUnit (0xdc00 + (c - 0x10000) % 1024)

def quoted (text : List Nat) : List Char := '"' :: (text.flatMap escapePoint ++ ['"'])

mutual

def dumps (sep : Separators) : Json → List Char
  | null => ['n', 'u', 'l', 'l']
  | bool true => ['t', 'r', 'u', 'e']
  | bool false => ['f', 'a', 'l', 's', 'e']
  | num text => text
  | str text => quoted text
  | arr items => '[' :: (List.intercalate sep.item (dumpsItems sep items) ++ [']'])
  | obj entries => '\x7b' :: (List.intercalate sep.item (dumpsEntries sep entries) ++ ['\x7d'])
termination_by structural value => value

def dumpsItems (sep : Separators) : List Json → List (List Char)
  | [] => []
  | value :: rest => dumps sep value :: dumpsItems sep rest
termination_by structural items => items

def dumpsEntries (sep : Separators) : List (List Nat × Json) → List (List Char)
  | [] => []
  | (key, value) :: rest => (quoted key ++ sep.key ++ dumps sep value) :: dumpsEntries sep rest
termination_by structural entries => entries

end

/-- `len(json.dumps(value))` -/
def size (sep : Separators) (value : Json) : Nat := (dumps sep value).length

/-- `len(json.dumps(text))` -/
def textSize (text : List Nat) : Nat := (quoted text).length

/-! ## Places inside a value -/

/-- The value at a place: at each step down, the number of the item or of the entry. -/
def getAt : Json → List Nat → Option Json
  | value, [] => some value
  | arr items, i :: place => items[i]?.bind fun value => getAt value place
  | obj entries, i :: place => entries[i]?.bind fun entry => getAt entry.2 place
  | _, _ :: _ => none
termination_by structural _ place => place

/-- The value with another one at a place. -/
def setAt : Json → List Nat → Json → Json
  | _, [], new => new
  | arr items, i :: place, new => arr (items.modify i fun value => setAt value place new)
  | obj entries, i :: place, new =>
    obj (entries.modify i fun entry => (entry.1, setAt entry.2 place new))
  | value, _ :: _, _ => value
termination_by structural _ place => place

/-! ## The size of texts -/

variable {sep : Separators} {text : List Nat}

theorem textSize_eq (text : List Nat) : textSize text = (text.flatMap escapePoint).length + 2 := by
  unfold textSize quoted
  rw [List.length_cons, List.length_append, List.length_singleton]

theorem textSize_nil : textSize [] = 2 := rfl

theorem two_le_textSize (text : List Nat) : 2 ≤ textSize text := by
  rw [textSize_eq]
  omega

theorem size_str (text : List Nat) : size sep (str text) = textSize text := rfl

/-- A prefix of a text takes no more room. -/
theorem textSize_mono {p : List Nat} (h : p <+: text) : textSize p ≤ textSize text := by
  obtain ⟨q, rfl⟩ := h
  rw [textSize_eq, textSize_eq, List.flatMap_append, List.length_append]
  omega

/-! ## The size of containers -/

theorem dumpsItems_eq : ∀ items : List Json, dumpsItems sep items = items.map (dumps sep)
  | [] => rfl
  | value :: rest => by rw [dumpsItems, dumpsItems_eq rest, List.map_cons]

/-- The characters of one entry of an object. -/
def dumpsEntry (sep : Separators) (entry : List Nat × Json) : List Char :=
  quoted entry.1 ++ sep.key ++ dumps sep entry.2

theorem dumpsEntries_eq : ∀ entries : List (List Nat × Json),
    dumpsEntries sep entries = entries.map (dumpsEntry sep)
  | [] => rfl
  | (key, value) :: rest => by
    rw [dumpsEntries, dumpsEntries_eq rest, List.map_cons]
    rfl

theorem length_intercalate {α : Type} (between : List α) : ∀ parts : List (List α),
    (List.intercalate between parts).length =
      (parts.map List.length).sum + between.length * (parts.length - 1)
  | [] => rfl
  | [part] => by simp [List.intercalate]
  | part :: next :: rest => by
    have ih := length_intercalate between (next :: rest)
    have hstep : List.intercalate between (part :: next :: rest) =
        part ++ between ++ List.intercalate between (next :: rest) := by
      simp [List.intercalate]
    rw [hstep, List.length_append, List.length_append, ih]
    simp only [List.map_cons, List.sum_cons, List.length_cons, Nat.add_sub_cancel, Nat.mul_add]
    omega

/-- The size of an array whose items have these sizes. -/
def room (between : Nat) (sizes : List Nat) : Nat := sizes.sum + between * (sizes.length - 1) + 2

theorem size_arr (items : List Json) :
    size sep (arr items) = room sep.item.length (items.map (size sep)) := by
  unfold size room
  rw [dumps, List.length_cons, List.length_append, List.length_singleton, length_intercalate,
    dumpsItems_eq, List.map_map, List.length_map, List.length_map]
  rfl

def entrySize (sep : Separators) (entry : List Nat × Json) : Nat :=
  textSize entry.1 + sep.key.length + size sep entry.2

theorem size_obj (entries : List (List Nat × Json)) :
    size sep (obj entries) = room sep.item.length (entries.map (entrySize sep)) := by
  have hentry : (fun entry => (dumpsEntry sep entry).length) = entrySize sep := by
    funext entry
    unfold dumpsEntry entrySize size textSize
    rw [List.length_append, List.length_append]
  unfold size room
  rw [dumps, List.length_cons, List.length_append, List.length_singleton, length_intercalate,
    dumpsEntries_eq, List.map_map, List.length_map, List.length_map, ← hentry]
  rfl

theorem sum_modify {α : Type} (measure : α → Nat) (f : α → α) {a : α} :
    ∀ {l : List α} {i : Nat}, l[i]? = some a →
      ((l.modify i f).map measure).sum + measure a = (l.map measure).sum + measure (f a)
  | b :: l, 0, h => by
    obtain rfl : b = a := Option.some.inj h
    rw [List.modify_zero_cons, List.map_cons, List.sum_cons, List.map_cons, List.sum_cons]
    omega
  | b :: l, i + 1, h => by
    have ih := sum_modify measure f (l := l) (i := i) h
    rw [List.modify_succ_cons, List.map_cons, List.sum_cons, List.map_cons, List.sum_cons]
    omega

/-- Replacing a value changes the size by the difference of the two. -/
theorem size_setAt (sep : Separators) (new : Json) : ∀ {place : List Nat} {value old : Json},
    getAt value place = some old →
      size sep (setAt value place new) + size sep old = size sep value + size sep new
  | [], value, old, h => by
    obtain rfl : value = old := Option.some.inj h
    exact Nat.add_comm _ _
  | i :: place, arr items, old, h => by
    obtain ⟨item, hitem, hold⟩ := Option.bind_eq_some_iff.mp h
    have ih := size_setAt sep new hold
    have hsum := sum_modify (size sep) (fun value => setAt value place new) hitem
    show size sep (arr (items.modify i _)) + _ = _
    rw [size_arr, size_arr, room, room, List.length_map, List.length_map, List.length_modify]
    omega
  | i :: place, obj entries, old, h => by
    obtain ⟨entry, hentry, hold⟩ := Option.bind_eq_some_iff.mp h
    have ih := size_setAt sep new hold
    have hsum := sum_modify (entrySize sep)
      (fun entry => (entry.1, setAt entry.2 place new)) hentry
    have hnew : entrySize sep (entry.1, setAt entry.2 place new) + size sep old =
        entrySize sep entry + size sep new := by
      show textSize entry.1 + sep.key.length + size sep (setAt entry.2 place new) + _ =
        textSize entry.1 + sep.key.length + size sep entry.2 + _
      omega
    show size sep (obj (entries.modify i _)) + _ = _
    rw [size_obj, size_obj, room, room, List.length_map, List.length_map, List.length_modify]
    omega
  | _ :: _, null, _, h => by cases h
  | _ :: _, bool _, _, h => by cases h
  | _ :: _, num _, _, h => by cases h
  | _ :: _, str _, _, h => by cases h

theorem getElem?_modify_some {α : Type} (f : α → α) {l : List α} {i j : Nat} {a : α}
    (h : l[j]? = some a) : (l.modify i f)[j]? = some (if i = j then f a else a) := by
  rw [List.getElem?_modify, h]
  rfl

theorem getAt_setAt_self {new : Json} : ∀ {place : List Nat} {value old : Json},
    getAt value place = some old → getAt (setAt value place new) place = some new
  | [], _, _, _ => rfl
  | i :: place, arr items, old, h => by
    obtain ⟨item, hitem, hold⟩ := Option.bind_eq_some_iff.mp h
    show ((items.modify i fun value => setAt value place new)[i]?.bind fun value =>
      getAt value place) = _
    rw [getElem?_modify_some _ hitem, if_pos rfl]
    exact getAt_setAt_self hold
  | i :: place, obj entries, old, h => by
    obtain ⟨entry, hentry, hold⟩ := Option.bind_eq_some_iff.mp h
    show ((entries.modify i fun entry => (entry.1, setAt entry.2 place new))[i]?.bind fun entry =>
      getAt entry.2 place) = _
    rw [getElem?_modify_some _ hentry, if_pos rfl]
    exact getAt_setAt_self hold
  | _ :: _, null, _, h => by cases h
  | _ :: _, bool _, _, h => by cases h
  | _ :: _, num _, _, h => by cases h
  | _ :: _, str _, _, h => by cases h

/-- Neither an array nor an object. -/
def isScalar : Json → Bool
  | arr _ => false
  | obj _ => false
  | _ => true

/-- What stands elsewhere stays as it is. -/
theorem getAt_setAt_ne (new : Json) {other : Json} {t : List Nat} (hscalar : other.isScalar = true) :
    ∀ {place place' : List Nat} {value : Json}, getAt value place = some (str t) →
      getAt value place' = some other → place ≠ place' →
        getAt (setAt value place new) place' = some other
  | [], [], _, _, _, hne => absurd rfl hne
  | [], j :: place', value, h, hother, _ => by
    obtain rfl : value = str t := Option.some.inj h
    cases hother
  | i :: place, [], value, h, hother, _ => by
    obtain rfl : value = other := Option.some.inj hother
    cases value with
    | arr items => cases hscalar
    | obj entries => cases hscalar
    | null => cases h
    | bool b => cases h
    | num text => cases h
    | str text => cases h
  | i :: place, j :: place', arr items, h, hother, hne => by
    obtain ⟨item, hitem, hold⟩ := Option.bind_eq_some_iff.mp h
    obtain ⟨item', hitem', hold'⟩ := Option.bind_eq_some_iff.mp hother
    show ((items.modify i fun value => setAt value place new)[j]?.bind fun value =>
      getAt value place') = _
    rw [getElem?_modify_some _ hitem']
    by_cases hij : i = j
    · subst hij
      obtain rfl : item = item' := Option.some.inj (hitem.symm.trans hitem')
      rw [if_pos rfl]
      exact getAt_setAt_ne new hscalar hold hold' fun h => hne (congrArg (i :: ·) h)
    · rw [if_neg hij]
      exact hold'
  | i :: place, j :: place', obj entries, h, hother, hne => by
    obtain ⟨entry, hentry, hold⟩ := Option.bind_eq_some_iff.mp h
    obtain ⟨entry', hentry', hold'⟩ := Option.bind_eq_some_iff.mp hother
    show ((entries.modify i fun entry => (entry.1, setAt entry.2 place new))[j]?.bind fun entry =>
      getAt entry.2 place') = _
    rw [getElem?_modify_some _ hentry']
    by_cases hij : i = j
    · subst hij
      obtain rfl : entry = entry' := Option.some.inj (hentry.symm.trans hentry')
      rw [if_pos rfl]
      exact getAt_setAt_ne new hscalar hold hold' fun h => hne (congrArg (i :: ·) h)
    · rw [if_neg hij]
      exact hold'
  | _ :: _, _ :: _, null, h, _, _ => by cases h
  | _ :: _, _ :: _, bool _, h, _, _ => by cases h
  | _ :: _, _ :: _, num _, h, _, _ => by cases h
  | _ :: _, _ :: _, str _, h, _, _ => by cases h

/-! ## The size of an object under assignments -/

variable {key : List Nat} {entries : List (List Nat × Json)} {old new : Json}

/-- Assigning to a key that is there changes the size by the difference of the values. -/
theorem size_set (sep : Separators) (new : Json) (hkeys : (entries.map Prod.fst).Nodup)
    (h : Dict.get? entries key = some old) :
    size sep (obj (Dict.set entries key new)) + size sep old =
      size sep (obj entries) + size sep new := by
  obtain ⟨hsum, hlength⟩ := Dict.sum_set (entrySize sep) new hkeys h
  have hold : entrySize sep (key, old) = textSize key + sep.key.length + size sep old := rfl
  have hnew : entrySize sep (key, new) = textSize key + sep.key.length + size sep new := rfl
  rw [size_obj, size_obj, room, room, List.length_map, List.length_map, hlength]
  omega

/-- Assigning to a new key adds an entry. -/
theorem size_set_new (sep : Separators) (new : Json) (hne : entries ≠ [])
    (h : key ∉ entries.map Prod.fst) :
    size sep (obj (Dict.set entries key new)) =
      size sep (obj entries) + sep.item.length + entrySize sep (key, new) := by
  have hset : Dict.set entries key new = entries ++ [(key, new)] := if_neg h
  have hpos := List.length_pos_iff.mpr hne
  rw [hset, size_obj, size_obj, room, room, List.length_map, List.length_map, List.length_append,
    List.map_append, List.sum_append, List.length_singleton, List.map_singleton,
    List.sum_singleton]
  have hcount : entries.length + 1 - 1 = (entries.length - 1) + 1 := by omega
  rw [hcount, Nat.mul_add, Nat.mul_one]
  omega

end Json

end BackgroundAgents

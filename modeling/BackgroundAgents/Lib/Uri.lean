import BackgroundAgents.Lib.Utf8
import BackgroundAgents.Lib.Utf16

/-!
# Percent-encoded text

`encode keep` writes each character as itself, where `keep` has it, or as the bytes of its
UTF-8 in percent notation. `decodeURIComponent` reads every such text back
(`decode_encode`), whichever ASCII characters are kept. Texts are lists of UTF-16 units.
-/

namespace BackgroundAgents.Uri

open Utf16 (units)

/-- Letters and digits. -/
def alphanumeric (n : Nat) : Bool :=
  (0x30 ≤ n && n ≤ 0x39) || (0x41 ≤ n && n ≤ 0x5a) || (0x61 ≤ n && n ≤ 0x7a)

/-- `-_.!~*'()` -/
def marks : List Nat := [0x2d, 0x5f, 0x2e, 0x21, 0x7e, 0x2a, 0x27, 0x28, 0x29]

/-- The characters that `encodeURIComponent` keeps. -/
def unreserved (c : Char) : Bool := alphanumeric c.toNat || marks.contains c.toNat

def hexDigit (n : Nat) : UInt16 := UInt16.ofNat (if n < 10 then 0x30 + n else 0x37 + n)

def percent (b : UInt8) : List UInt16 :=
  [0x25, hexDigit (b.toNat / 16), hexDigit (b.toNat % 16)]

def escape (keep : Char → Bool) (c : Char) : List UInt16 :=
  if keep c then [UInt16.ofNat c.toNat] else (Utf8.encodePoint c.toNat).flatMap percent

def encode (keep : Char → Bool) (cs : List Char) : List UInt16 := cs.flatMap (escape keep)

/-- `encodeURIComponent`, where `none` is its `URIError`. -/
def encodeURIComponent (t : List UInt16) : Option (List UInt16) :=
  (Utf16.decode t).map (encode unreserved)

def hexValue (u : UInt16) : Option Nat :=
  if 0x30 ≤ u.toNat ∧ u.toNat ≤ 0x39 then some (u.toNat - 0x30)
  else if 0x41 ≤ u.toNat ∧ u.toNat ≤ 0x46 then some (u.toNat - 0x37)
  else if 0x61 ≤ u.toNat ∧ u.toNat ≤ 0x66 then some (u.toNat - 0x57)
  else none

/-- A unit that stands for itself, or a byte in percent notation. -/
inductive Token where
  | unit (u : UInt16)
  | byte (b : UInt8)
  deriving DecidableEq, Repr

def tokens : List UInt16 → Option (List Token)
  | [] => some []
  | u :: t =>
    if u = 0x25 then
      match t with
      | h :: l :: t =>
        match hexValue h, hexValue l with
        | some high, some low => (tokens t).map (.byte (UInt8.ofNat (16 * high + low)) :: ·)
        | _, _ => none
      | _ => none
    else (tokens t).map (.unit u :: ·)

/-- The bytes up to the next unit. -/
def bytesAhead : List Token → List UInt8
  | .byte b :: ts => b :: bytesAhead ts
  | _ => []

/-- The text of the tokens, after as many as belong to the last character. -/
def joined : Nat → List Token → Option (List UInt16)
  | _, [] => some []
  | n + 1, _ :: ts => joined n ts
  | 0, .unit u :: ts => (joined 0 ts).map (u :: ·)
  | 0, .byte a :: ts =>
    let found := Utf8.head a (bytesAhead ts)
    if a.toNat < 0x80 ∨ 0 < found.2 then
      (joined found.2 ts).map (units (Char.ofNat found.1) ++ ·)
    else none

/-- `decodeURIComponent`, where `none` is its `URIError`. -/
def decodeURIComponent (t : List UInt16) : Option (List UInt16) :=
  (tokens t).bind (joined 0)

/-! ## What is encoded is read back -/

variable {keep : Char → Bool} {c : Char} {cs : List Char}

/-- The kept characters are ASCII and not the percent sign. -/
def Keeps (keep : Char → Bool) : Prop :=
  ∀ c, keep c = true → c.toNat < 0x80 ∧ c.toNat ≠ 0x25

theorem toNat_hexDigit {n : Nat} (h : n < 16) :
    (hexDigit n).toNat = if n < 10 then 0x30 + n else 0x37 + n := by
  refine Utf16.toNat_ofNat ?_
  split
  next => omega
  next => omega

theorem hexValue_hexDigit {n : Nat} (h : n < 16) : hexValue (hexDigit n) = some n := by
  unfold hexValue
  rw [toNat_hexDigit h]
  split
  next => rw [if_pos (by omega), Nat.add_sub_cancel_left]
  next => rw [if_neg (by omega), if_pos (by omega), Nat.add_sub_cancel_left]

theorem tokens_unit {u : UInt16} (h : u ≠ 0x25) (t : List UInt16) :
    tokens (u :: t) = (tokens t).map (.unit u :: ·) := by
  rw [tokens.eq_def]
  dsimp only
  rw [if_neg h]

theorem tokens_percent (b : UInt8) (t : List UInt16) :
    tokens (percent b ++ t) = (tokens t).map (.byte b :: ·) := by
  have hb := b.toNat_lt
  have hback : 16 * (b.toNat / 16) + b.toNat % 16 = b.toNat := Nat.div_add_mod b.toNat 16
  show tokens (0x25 :: hexDigit _ :: hexDigit _ :: t) = _
  rw [tokens, if_pos rfl, hexValue_hexDigit (by omega), hexValue_hexDigit (by omega)]
  dsimp only
  rw [hback, UInt8.ofNat_toNat]

theorem tokens_percents (bytes : List UInt8) (t : List UInt16) :
    tokens (bytes.flatMap percent ++ t) = (tokens t).map (bytes.map .byte ++ ·) := by
  induction bytes with
  | nil =>
    show tokens t = _
    rw [List.map_nil]
    cases tokens t with
    | none => rfl
    | some ts => rfl
  | cons b bytes ih =>
    rw [List.flatMap_cons, List.append_assoc, tokens_percent, ih, Option.map_map]
    rfl

/-- The tokens of a character. -/
def tokensOf (keep : Char → Bool) (c : Char) : List Token :=
  if keep c then [.unit (UInt16.ofNat c.toNat)] else (Utf8.encodePoint c.toNat).map .byte

theorem tokens_encode (hkeep : Keeps keep) (cs : List Char) :
    tokens (encode keep cs) = some (cs.flatMap (tokensOf keep)) := by
  induction cs with
  | nil => rfl
  | cons c cs ih =>
    show tokens (escape keep c ++ encode keep cs) = _
    unfold escape
    rw [List.flatMap_cons, tokensOf]
    split
    next hc =>
      have hascii := hkeep c hc
      have hu := Utf16.toNat_ofNat (show c.toNat < 0x10000 by omega)
      have hne : UInt16.ofNat c.toNat ≠ 0x25 := by
        intro he
        rw [he] at hu
        exact hascii.2 hu.symm
      rw [List.singleton_append, tokens_unit hne, ih]
      rfl
    next => rw [tokens_percents, ih, Option.map_some]

theorem bytesAhead_append (bytes : List UInt8) (ts : List Token) :
    bytesAhead (bytes.map .byte ++ ts) = bytes ++ bytesAhead ts := by
  induction bytes with
  | nil => rfl
  | cons b bytes ih =>
    rw [List.map_cons, List.cons_append, bytesAhead, ih]
    rfl

theorem joined_skip (bytes : List UInt8) (ts : List Token) :
    joined bytes.length (bytes.map .byte ++ ts) = joined 0 ts := by
  induction bytes with
  | nil => rfl
  | cons b bytes ih =>
    rw [List.map_cons, List.cons_append, List.length_cons, joined, ih]

theorem joined_tokensOf (hkeep : Keeps keep) (c : Char) (ts : List Token) :
    joined 0 (tokensOf keep c ++ ts) = (joined 0 ts).map (units c ++ ·) := by
  unfold tokensOf
  split
  next hc =>
    have hascii := hkeep c hc
    have hunits : units c = [UInt16.ofNat c.toNat] := by
      unfold units
      rw [if_pos (by omega)]
    rw [hunits]
    rfl
  next =>
    obtain ⟨a, rest, hbytes, hmore, hhead⟩ := Utf8.head_encodePoint (Utf16.char_lt c)
      (Utf16.char_scalar c) (bytesAhead ts)
    rw [hbytes, List.map_cons, List.cons_append, joined, bytesAhead_append, hhead]
    dsimp only
    rw [joined_skip, Char.ofNat_toNat, if_pos hmore]

theorem decode_encode (hkeep : Keeps keep) (cs : List Char) :
    decodeURIComponent (encode keep cs) = some (Utf16.encode cs) := by
  unfold decodeURIComponent
  rw [tokens_encode hkeep, Option.bind_some]
  induction cs with
  | nil => rfl
  | cons c cs ih =>
    rw [List.flatMap_cons, joined_tokensOf hkeep, ih]
    rfl

theorem encode_injective (hkeep : Keeps keep) : Function.Injective (encode keep) := by
  intro cs cs' h
  have hdecode := decode_encode hkeep cs
  rw [h, decode_encode hkeep] at hdecode
  exact (Utf16.encode_injective (Option.some.inj hdecode)).symm

theorem alphanumeric_lt {n : Nat} (h : alphanumeric n = true) : 0x30 ≤ n ∧ n < 0x7b := by
  unfold alphanumeric at h
  simp only [Bool.or_eq_true, Bool.and_eq_true, decide_eq_true_eq] at h
  omega

theorem unreserved_keeps : Keeps unreserved := by
  intro c hc
  unfold unreserved at hc
  rw [Bool.or_eq_true] at hc
  cases hc with
  | inl hc =>
    have hlt := alphanumeric_lt hc
    omega
  | inr hc =>
    have hmark : ∀ n ∈ marks, n < 0x80 ∧ n ≠ 0x25 := by decide
    exact hmark _ (List.contains_iff_mem.mp hc)

/-- An encoded text is made of kept characters, percent signs and hexadecimal digits. -/
theorem mem_encode {u : UInt16} (hkeep : Keeps keep) (h : u ∈ encode keep cs) :
    (∃ c, keep c = true ∧ u.toNat = c.toNat) ∨ u = 0x25 ∨ alphanumeric u.toNat = true := by
  obtain ⟨c, _, hc⟩ := List.mem_flatMap.mp h
  unfold escape at hc
  split at hc
  next hkept =>
    have hlt := (hkeep c hkept).1
    rw [List.mem_singleton.mp hc]
    exact Or.inl ⟨c, hkept, Utf16.toNat_ofNat (by omega)⟩
  next =>
    have hdigit : ∀ n < 16, alphanumeric (hexDigit n).toNat = true := by decide
    obtain ⟨b, _, hb⟩ := List.mem_flatMap.mp hc
    have hlt := b.toNat_lt
    unfold percent at hb
    rw [List.mem_cons, List.mem_cons, List.mem_singleton] at hb
    obtain hb | rfl | rfl := hb
    · exact Or.inr (Or.inl hb)
    · exact Or.inr (Or.inr (hdigit _ (by omega)))
    · exact Or.inr (Or.inr (hdigit _ (by omega)))

/-- Other characters do not occur in an encoded text. -/
theorem not_mem_encode (hkeep : ∀ c, keep c = true → unreserved c = true) {u : UInt16}
    (h : (u = 0x25 || alphanumeric u.toNat || marks.contains u.toNat) = false) :
    u ∉ encode keep cs := by
  intro hmem
  rw [Bool.or_eq_false_iff, Bool.or_eq_false_iff, decide_eq_false_iff_not] at h
  have hkeeps : Keeps keep := fun c hc => unreserved_keeps c (hkeep c hc)
  obtain ⟨c, hc, hu⟩ | hu | hu := mem_encode hkeeps hmem
  · have hunreserved := hkeep c hc
    unfold unreserved at hunreserved
    rw [← hu, h.1.2, h.2] at hunreserved
    exact Bool.false_ne_true hunreserved
  · exact h.1.1 hu
  · exact Bool.false_ne_true (h.1.2.symm.trans hu)

end BackgroundAgents.Uri

import Mathlib.Data.List.Basic

/-!
# UTF-16

The units of a character, and the characters that units stand for: all of them are read
back (`decode_encode`), and only the units of characters are read (`encode_decode`).
-/

namespace BackgroundAgents.Utf16

def units (c : Char) : List UInt16 :=
  if c.toNat < 0x10000 then [UInt16.ofNat c.toNat]
  else
    [UInt16.ofNat (0xd800 + (c.toNat - 0x10000) / 1024),
      UInt16.ofNat (0xdc00 + (c.toNat - 0x10000) % 1024)]

def encode (cs : List Char) : List UInt16 := cs.flatMap units

def surrogate (u : UInt16) : Bool := 0xd800 ≤ u.toNat && u.toNat < 0xe000

/-- A high surrogate and a low one. -/
def pair (u v : UInt16) : Bool :=
  0xd800 ≤ u.toNat && u.toNat < 0xdc00 && 0xdc00 ≤ v.toNat && v.toNat < 0xe000

def paired (u v : UInt16) : Char :=
  Char.ofNat (0x10000 + (u.toNat - 0xd800) * 1024 + (v.toNat - 0xdc00))

/-- The characters; `none` where a surrogate stands alone. -/
def decode : List UInt16 → Option (List Char)
  | [] => some []
  | [u] => if surrogate u then none else some [Char.ofNat u.toNat]
  | u :: v :: t =>
    if surrogate u then
      if pair u v then (decode t).map (paired u v :: ·) else none
    else (decode (v :: t)).map (Char.ofNat u.toNat :: ·)

/-- The characters, with U+FFFD for a surrogate that stands alone. -/
def decodeLossy : List UInt16 → List Char
  | [] => []
  | [u] => [if surrogate u then Char.ofNat 0xfffd else Char.ofNat u.toNat]
  | u :: v :: t =>
    if surrogate u then
      if pair u v then paired u v :: decodeLossy t
      else Char.ofNat 0xfffd :: decodeLossy (v :: t)
    else Char.ofNat u.toNat :: decodeLossy (v :: t)

/-! ## Characters -/

theorem toNat_ofNat {n : Nat} (h : n < 0x10000) : (UInt16.ofNat n).toNat = n :=
  UInt16.toNat_ofNat_of_lt h

theorem char_lt (c : Char) : c.toNat < 0x110000 := by
  have hvalid := c.valid
  unfold UInt32.isValidChar Nat.isValidChar at hvalid
  unfold Char.toNat
  omega

theorem char_scalar (c : Char) : ¬ (0xd800 ≤ c.toNat ∧ c.toNat < 0xe000) := by
  have hvalid := c.valid
  unfold UInt32.isValidChar Nat.isValidChar at hvalid
  unfold Char.toNat
  omega

theorem toNat_char {n : Nat} (hlt : n < 0x110000) (hscalar : ¬ (0xd800 ≤ n ∧ n < 0xe000)) :
    (Char.ofNat n).toNat = n := by
  have hvalid : n.isValidChar := by
    unfold Nat.isValidChar
    omega
  unfold Char.ofNat
  rw [dif_pos hvalid]
  rfl

theorem surrogate_iff {u : UInt16} : surrogate u = true ↔ 0xd800 ≤ u.toNat ∧ u.toNat < 0xe000 := by
  rw [surrogate, Bool.and_eq_true, decide_eq_true_eq, decide_eq_true_eq]

theorem pair_iff {u v : UInt16} : pair u v = true ↔
    (0xd800 ≤ u.toNat ∧ u.toNat < 0xdc00) ∧ 0xdc00 ≤ v.toNat ∧ v.toNat < 0xe000 := by
  rw [pair, Bool.and_eq_true, Bool.and_eq_true, Bool.and_eq_true, decide_eq_true_eq,
    decide_eq_true_eq, decide_eq_true_eq, decide_eq_true_eq, and_assoc]

theorem decode_plain {u : UInt16} (h : surrogate u = false) (t : List UInt16) :
    decode (u :: t) = (decode t).map (Char.ofNat u.toNat :: ·) := by
  cases t with
  | nil =>
    rw [decode, decode, if_neg (by rw [h]; exact Bool.false_ne_true)]
    rfl
  | cons v t => rw [decode, if_neg (by rw [h]; exact Bool.false_ne_true)]

theorem decode_units (c : Char) (t : List UInt16) :
    decode (units c ++ t) = (decode t).map (c :: ·) := by
  have hlt := char_lt c
  have hscalar := char_scalar c
  unfold units
  split
  next hone =>
    have hu := toNat_ofNat hone
    have hplain : surrogate (UInt16.ofNat c.toNat) = false := by
      rw [Bool.eq_false_iff, ne_eq, surrogate_iff, hu]
      exact hscalar
    rw [List.singleton_append, decode_plain hplain, hu, Char.ofNat_toNat]
  next hone =>
    obtain ⟨high, hhigh⟩ : ∃ high, high = UInt16.ofNat (0xd800 + (c.toNat - 0x10000) / 1024) :=
      ⟨_, rfl⟩
    obtain ⟨low, hlow⟩ : ∃ low, low = UInt16.ofNat (0xdc00 + (c.toNat - 0x10000) % 1024) :=
      ⟨_, rfl⟩
    have hu : high.toNat = 0xd800 + (c.toNat - 0x10000) / 1024 := by
      rw [hhigh]
      exact toNat_ofNat (by omega)
    have hv : low.toNat = 0xdc00 + (c.toNat - 0x10000) % 1024 := by
      rw [hlow]
      exact toNat_ofNat (by omega)
    have hpaired : paired high low = c := by
      have hpoint : 0x10000 + (high.toNat - 0xd800) * 1024 + (low.toNat - 0xdc00) = c.toNat := by
        omega
      unfold paired
      rw [hpoint, Char.ofNat_toNat]
    rw [← hhigh, ← hlow, List.cons_append, List.singleton_append, decode,
      if_pos (surrogate_iff.mpr (by omega)), if_pos (pair_iff.mpr (by omega)), hpaired]

theorem decode_encode (cs : List Char) : decode (encode cs) = some cs := by
  induction cs with
  | nil => rfl
  | cons c cs ih =>
    show decode (units c ++ encode cs) = _
    rw [decode_units, ih]
    rfl

theorem encode_injective : Function.Injective encode := by
  intro cs cs' h
  have hdecode := decode_encode cs
  rw [h, decode_encode] at hdecode
  exact (Option.some.inj hdecode).symm

theorem units_plain {u : UInt16} (h : surrogate u = false) :
    units (Char.ofNat u.toNat) = [u] := by
  have hlt := u.toNat_lt
  have hu : (Char.ofNat u.toNat).toNat = u.toNat := by
    refine toNat_char (by omega) fun hsur => ?_
    rw [surrogate_iff.mpr hsur] at h
    exact Bool.false_ne_true h.symm
  unfold units
  rw [hu, if_pos (by omega), UInt16.ofNat_toNat]

theorem units_paired {u v : UInt16} (h : pair u v = true) : units (paired u v) = [u, v] := by
  have hpair := pair_iff.mp h
  have hchar : (paired u v).toNat =
      0x10000 + (u.toNat - 0xd800) * 1024 + (v.toNat - 0xdc00) :=
    toNat_char (by omega) (by omega)
  have hhigh : 0xd800 + ((paired u v).toNat - 0x10000) / 1024 = u.toNat := by omega
  have hlow : 0xdc00 + ((paired u v).toNat - 0x10000) % 1024 = v.toNat := by omega
  unfold units
  rw [if_neg (by omega), hhigh, hlow, UInt16.ofNat_toNat, UInt16.ofNat_toNat]

theorem encode_decode : ∀ {t : List UInt16} {cs : List Char}, decode t = some cs → encode cs = t
  | [], cs, h => by
    obtain rfl := Option.some.inj h
    rfl
  | [u], cs, h => by
    rw [decode] at h
    split at h
    next => cases h
    next hu =>
      obtain rfl := Option.some.inj h
      show units _ ++ [] = _
      rw [units_plain (Bool.eq_false_iff.mpr hu), List.append_nil]
  | u :: v :: t, cs, h => by
    rw [decode] at h
    split at h
    next =>
      split at h
      next hpair =>
        obtain ⟨rest, hrest, rfl⟩ := Option.map_eq_some_iff.mp h
        show units _ ++ encode rest = _
        rw [units_paired hpair, encode_decode hrest]
        rfl
      next => cases h
    next hu =>
      obtain ⟨rest, hrest, rfl⟩ := Option.map_eq_some_iff.mp h
      show units _ ++ encode rest = _
      rw [units_plain (Bool.eq_false_iff.mpr hu), encode_decode hrest]
      rfl

/-- Without a lone surrogate nothing is lost. -/
theorem decodeLossy_of_decode : ∀ {t : List UInt16} {cs : List Char}, decode t = some cs →
    decodeLossy t = cs
  | [], cs, h => Option.some.inj h
  | [u], cs, h => by
    rw [decode] at h
    rw [decodeLossy]
    split at h
    next => cases h
    next hu =>
      rw [if_neg hu]
      exact Option.some.inj h
  | u :: v :: t, cs, h => by
    rw [decode] at h
    rw [decodeLossy]
    split at h
    next hu =>
      rw [if_pos hu]
      split at h
      next hpair =>
        obtain ⟨rest, hrest, rfl⟩ := Option.map_eq_some_iff.mp h
        rw [if_pos hpair, decodeLossy_of_decode hrest]
      next => cases h
    next hu =>
      obtain ⟨rest, hrest, rfl⟩ := Option.map_eq_some_iff.mp h
      rw [if_neg hu, decodeLossy_of_decode hrest]

end BackgroundAgents.Utf16

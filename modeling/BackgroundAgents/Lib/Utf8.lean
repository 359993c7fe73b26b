import Mathlib.Data.List.Basic

/-!
# UTF-8 with escaped bytes

`decode` reads bytes as UTF-8; a byte which begins no well-formed sequence becomes
the lone surrogate `0xdc00` above it, so every list of bytes has a text. `encode`
takes the text back to the bytes it came from (`encode_decode`), so no two lists of
bytes have one text. A text is the list of its code points.
-/

namespace BackgroundAgents.Utf8

def continues (b : UInt8) : Bool := 0x80 ≤ b.toNat && b.toNat < 0xc0

def two (a b : UInt8) : Nat := (a.toNat - 0xc0) * 64 + (b.toNat - 0x80)

def three (a b c : UInt8) : Nat :=
  (a.toNat - 0xe0) * 4096 + (b.toNat - 0x80) * 64 + (c.toNat - 0x80)

def four (a b c d : UInt8) : Nat :=
  (a.toNat - 0xf0) * 262144 + (b.toNat - 0x80) * 4096 + (c.toNat - 0x80) * 64 + (d.toNat - 0x80)

/-- A byte that is no part of a well-formed sequence. -/
def escaped (b : UInt8) : Nat := 0xdc00 + b.toNat

/-- The code point at the head of the bytes, and how many bytes it takes beyond the first. -/
def head (a : UInt8) (t : List UInt8) : Nat × Nat :=
  if a.toNat < 0x80 then (a.toNat, 0)
  else if a.toNat < 0xe0 then
    match t with
    | b :: _ => if 0xc2 ≤ a.toNat ∧ continues b then (two a b, 1) else (escaped a, 0)
    | [] => (escaped a, 0)
  else if a.toNat < 0xf0 then
    match t with
    | b :: c :: _ =>
      -- neither overlong nor a surrogate
      if continues b ∧ continues c ∧ 0x800 ≤ three a b c ∧
          ¬ (0xd800 ≤ three a b c ∧ three a b c < 0xe000) then (three a b c, 2)
      else (escaped a, 0)
    | _ => (escaped a, 0)
  else
    match t with
    | b :: c :: d :: _ =>
      if a.toNat < 0xf8 ∧ continues b ∧ continues c ∧ continues d ∧ 0x10000 ≤ four a b c d ∧
          four a b c d < 0x110000 then (four a b c d, 3)
      else (escaped a, 0)
    | _ => (escaped a, 0)

/-- Decodes, after as many bytes as belong to the last code point. -/
def decodeAfter : Nat → List UInt8 → List Nat
  | _, [] => []
  | 0, a :: t => (head a t).1 :: decodeAfter (head a t).2 t
  | n + 1, _ :: t => decodeAfter n t

/-- `bytes.decode("utf-8", errors="surrogateescape")` -/
def decode (bytes : List UInt8) : List Nat := decodeAfter 0 bytes

/-- How many bytes after the first belong to a sequence that breaks off. -/
def broken (a : UInt8) : List UInt8 → Nat
  | [] => 0
  | b :: t =>
    let second := continues b && (a.toNat ≠ 0xe0 || 0xa0 ≤ b.toNat) &&
      (a.toNat ≠ 0xed || b.toNat < 0xa0) && (a.toNat ≠ 0xf0 || 0x90 ≤ b.toNat) &&
      (a.toNat ≠ 0xf4 || b.toNat < 0x90)
    if a.toNat < 0xe0 || 0xf4 < a.toNat || !second then 0
    else if a.toNat < 0xf0 then 1
    else
      match t with
      | c :: _ => if continues c then 2 else 1
      | [] => 1

def replaceAfter : Nat → List UInt8 → List Nat
  | _, [] => []
  | 0, a :: t =>
    if a.toNat < 0x80 ∨ 0 < (head a t).2 then (head a t).1 :: replaceAfter (head a t).2 t
    else 0xfffd :: replaceAfter (broken a t) t
  | n + 1, _ :: t => replaceAfter n t

/-- `bytes.decode("utf-8", errors="replace")` -/
def decodeReplace (bytes : List UInt8) : List Nat := replaceAfter 0 bytes

/-- `bytes.decode()`, where `none` is its `UnicodeDecodeError`. -/
def decodeStrict (bytes : List UInt8) : Option (List Nat) :=
  if (decode bytes).any fun c => 0xdc80 ≤ c && c < 0xdd00 then none else some (decode bytes)

/-- The bytes of a code point. -/
def encodePoint (c : Nat) : List UInt8 :=
  if c < 0x80 then [UInt8.ofNat c]
  else if c < 0x800 then [UInt8.ofNat (0xc0 + c / 64), UInt8.ofNat (0x80 + c % 64)]
  else if 0xdc80 ≤ c ∧ c < 0xdd00 then [UInt8.ofNat (c - 0xdc00)]
  else if c < 0x10000 then
    [UInt8.ofNat (0xe0 + c / 4096), UInt8.ofNat (0x80 + c / 64 % 64), UInt8.ofNat (0x80 + c % 64)]
  else
    [UInt8.ofNat (0xf0 + c / 262144), UInt8.ofNat (0x80 + c / 4096 % 64),
      UInt8.ofNat (0x80 + c / 64 % 64), UInt8.ofNat (0x80 + c % 64)]

/-- `text.encode("utf-8", errors="surrogateescape")` -/
def encode (text : List Nat) : List UInt8 := text.flatMap encodePoint

theorem ofNat_eq {n : Nat} {b : UInt8} (h : n = b.toNat) : UInt8.ofNat n = b := by
  rw [h]
  exact UInt8.ofNat_toNat

theorem continues_iff {b : UInt8} : continues b = true ↔ 0x80 ≤ b.toNat ∧ b.toNat < 0xc0 := by
  rw [continues, Bool.and_eq_true, decide_eq_true_iff, decide_eq_true_iff]

theorem encodePoint_ascii {a : UInt8} (h : a.toNat < 0x80) : encodePoint a.toNat = [a] := by
  rw [encodePoint, if_pos h, ofNat_eq rfl]

theorem encodePoint_escaped {a : UInt8} (h : 0x80 ≤ a.toNat) : encodePoint (escaped a) = [a] := by
  have hlt := a.toNat_lt
  unfold encodePoint escaped
  rw [if_neg (by omega), if_neg (by omega), if_pos (by omega), ofNat_eq (b := a) (by omega)]

theorem encodePoint_two {a b : UInt8} (hlow : 0xc2 ≤ a.toNat) (hhigh : a.toNat < 0xe0)
    (hb : continues b = true) : encodePoint (two a b) = [a, b] := by
  rw [continues_iff] at hb
  unfold encodePoint two
  rw [if_neg (by omega), if_pos (by omega), ofNat_eq (b := a) (by omega),
    ofNat_eq (b := b) (by omega)]

theorem encodePoint_three {a b c : UInt8} (hlow : 0xe0 ≤ a.toNat) (hhigh : a.toNat < 0xf0)
    (hb : continues b = true) (hc : continues c = true) (hlong : 0x800 ≤ three a b c)
    (hscalar : ¬ (0xd800 ≤ three a b c ∧ three a b c < 0xe000)) :
    encodePoint (three a b c) = [a, b, c] := by
  rw [continues_iff] at hb hc
  unfold three at hlong hscalar ⊢
  unfold encodePoint
  rw [if_neg (by omega), if_neg (by omega), if_neg (by omega), if_pos (by omega),
    ofNat_eq (b := a) (by omega), ofNat_eq (b := b) (by omega), ofNat_eq (b := c) (by omega)]

theorem encodePoint_four {a b c d : UInt8} (hlow : 0xf0 ≤ a.toNat) (hhigh : a.toNat < 0xf8)
    (hb : continues b = true) (hc : continues c = true) (hd : continues d = true)
    (hlong : 0x10000 ≤ four a b c d) : encodePoint (four a b c d) = [a, b, c, d] := by
  rw [continues_iff] at hb hc hd
  unfold four at hlong ⊢
  unfold encodePoint
  rw [if_neg (by omega), if_neg (by omega), if_neg (by omega), if_neg (by omega),
    ofNat_eq (b := a) (by omega), ofNat_eq (b := b) (by omega), ofNat_eq (b := c) (by omega),
    ofNat_eq (b := d) (by omega)]

/-- The bytes of the code point at the head are the ones it was read from. -/
theorem encodePoint_head (a : UInt8) (t : List UInt8) :
    encodePoint (head a t).1 = a :: t.take (head a t).2 ∧ (head a t).2 ≤ t.length := by
  have hescaped : 0x80 ≤ a.toNat →
      encodePoint (escaped a, 0).1 = a :: t.take (escaped a, 0).2 ∧
        (escaped a, 0).2 ≤ t.length :=
    fun h => ⟨encodePoint_escaped h, Nat.zero_le _⟩
  unfold head
  split
  next h => exact ⟨encodePoint_ascii h, Nat.zero_le _⟩
  next h =>
    split
    next h2 =>
      split
      next b t =>
        split
        next hb => exact ⟨encodePoint_two hb.1 h2 hb.2, by simp⟩
        next => exact hescaped (by omega)
      next => exact hescaped (by omega)
    next h2 =>
      split
      next h3 =>
        split
        next b c t =>
          split
          next hbc =>
            exact ⟨encodePoint_three (by omega) h3 hbc.1 hbc.2.1 hbc.2.2.1 hbc.2.2.2, by simp⟩
          next => exact hescaped (by omega)
        next => exact hescaped (by omega)
      next h3 =>
        split
        next b c d t =>
          split
          next hbcd =>
            exact ⟨encodePoint_four (by omega) hbcd.1 hbcd.2.1 hbcd.2.2.1 hbcd.2.2.2.1
              hbcd.2.2.2.2.1, by simp⟩
          next => exact hescaped (by omega)
        next => exact hescaped (by omega)

theorem encode_decodeAfter : ∀ (n : Nat) (bytes : List UInt8),
    encode (decodeAfter n bytes) = bytes.drop n
  | 0, [] => rfl
  | _ + 1, [] => rfl
  | 0, a :: t => by
    show encodePoint (head a t).1 ++ encode (decodeAfter (head a t).2 t) = a :: t
    rw [(encodePoint_head a t).1, encode_decodeAfter (head a t).2 t, List.cons_append,
      List.take_append_drop]
  | n + 1, _ :: t => encode_decodeAfter n t

theorem encode_decode (bytes : List UInt8) : encode (decode bytes) = bytes :=
  encode_decodeAfter 0 bytes

theorem decode_injective : Function.Injective decode :=
  Function.LeftInverse.injective encode_decode

/-- An ASCII character stands for itself. -/
theorem decode_cons_ascii {a : UInt8} (h : a.toNat < 0x80) (t : List UInt8) :
    decode (a :: t) = a.toNat :: decode t := by
  have hhead : head a t = (a.toNat, 0) := by
    unfold head
    rw [if_pos h]
  show (head a t).1 :: decodeAfter (head a t).2 t = _
  rw [hhead]
  rfl

/-! ## Scalar values -/

theorem toNat_ofNat {n : Nat} (h : n < 0x100) : (UInt8.ofNat n).toNat = n :=
  UInt8.toNat_ofNat_of_lt h

theorem continues_ofNat {n : Nat} (h : n < 64) : continues (UInt8.ofNat (0x80 + n)) = true := by
  rw [continues_iff, toNat_ofNat (by omega)]
  omega

/-- The bytes of a scalar value are read as it, whatever comes behind them. -/
theorem head_encodePoint {c : Nat} (hlt : c < 0x110000) (hscalar : ¬ (0xd800 ≤ c ∧ c < 0xe000))
    (t : List UInt8) :
    ∃ a rest, encodePoint c = a :: rest ∧ (a.toNat < 0x80 ∨ 0 < rest.length) ∧
      head a (rest ++ t) = (c, rest.length) := by
  unfold encodePoint
  split
  next h1 =>
    have ha := toNat_ofNat (show c < 0x100 by omega)
    refine ⟨_, [], rfl, Or.inl (by omega), ?_⟩
    unfold head
    rw [ha, if_pos h1]
    rfl
  next h1 =>
    split
    next h2 =>
      have ha := toNat_ofNat (show 0xc0 + c / 64 < 0x100 by omega)
      have hb := toNat_ofNat (show 0x80 + c % 64 < 0x100 by omega)
      have hcb := continues_ofNat (show c % 64 < 64 by omega)
      refine ⟨_, [_], rfl, Or.inr (Nat.succ_pos _), ?_⟩
      unfold head
      dsimp only [List.cons_append]
      rw [ha, if_neg (by omega), if_pos (by omega), if_pos ⟨by omega, hcb⟩]
      refine Prod.ext ?_ rfl
      show two _ _ = c
      unfold two
      omega
    next h2 =>
      rw [if_neg (by omega)]
      split
      next h3 =>
        have ha := toNat_ofNat (show 0xe0 + c / 4096 < 0x100 by omega)
        have hb := toNat_ofNat (show 0x80 + c / 64 % 64 < 0x100 by omega)
        have hc := toNat_ofNat (show 0x80 + c % 64 < 0x100 by omega)
        have hcb := continues_ofNat (show c / 64 % 64 < 64 by omega)
        have hcc := continues_ofNat (show c % 64 < 64 by omega)
        have hthree : three (UInt8.ofNat (0xe0 + c / 4096)) (UInt8.ofNat (0x80 + c / 64 % 64))
            (UInt8.ofNat (0x80 + c % 64)) = c := by
          unfold three
          omega
        refine ⟨_, [_, _], rfl, Or.inr (Nat.succ_pos _), ?_⟩
        unfold head
        dsimp only [List.cons_append]
        rw [ha, if_neg (by omega), if_neg (by omega), if_pos (by omega), hthree,
          if_pos ⟨hcb, hcc, by omega, hscalar⟩]
        rfl
      next h3 =>
        have ha := toNat_ofNat (show 0xf0 + c / 262144 < 0x100 by omega)
        have hb := toNat_ofNat (show 0x80 + c / 4096 % 64 < 0x100 by omega)
        have hc := toNat_ofNat (show 0x80 + c / 64 % 64 < 0x100 by omega)
        have hd := toNat_ofNat (show 0x80 + c % 64 < 0x100 by omega)
        have hcb := continues_ofNat (show c / 4096 % 64 < 64 by omega)
        have hcc := continues_ofNat (show c / 64 % 64 < 64 by omega)
        have hcd := continues_ofNat (show c % 64 < 64 by omega)
        have hfour : four (UInt8.ofNat (0xf0 + c / 262144)) (UInt8.ofNat (0x80 + c / 4096 % 64))
            (UInt8.ofNat (0x80 + c / 64 % 64)) (UInt8.ofNat (0x80 + c % 64)) = c := by
          unfold four
          omega
        refine ⟨_, [_, _, _], rfl, Or.inr (Nat.succ_pos _), ?_⟩
        unfold head
        dsimp only [List.cons_append]
        rw [ha, if_neg (by omega), if_neg (by omega), if_neg (by omega), hfour,
          if_pos ⟨by omega, hcb, hcc, hcd, by omega, hlt⟩]
        rfl

end BackgroundAgents.Utf8

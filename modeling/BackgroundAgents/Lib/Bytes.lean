import Mathlib.Data.List.Basic
import Mathlib.Data.Nat.Digits.Defs
import Mathlib.Data.List.Infix

/-!
# The operations of Python's `bytes`

Splitting at a separator with a bound on the splits (`splitMax`) or at white space
(`words`), and reading an integer (`toInt`), which takes back what `decimal` writes.
-/

namespace BackgroundAgents.Bytes

/-- What `split` and `int` take for white space. -/
def isSpace (b : UInt8) : Bool := (9 ≤ b.toNat && b.toNat ≤ 13) || b.toNat = 32

/-- `bytes.split()` -/
def words (bytes : List UInt8) : List (List UInt8) :=
  (bytes.splitOnP isSpace).filter fun word => !word.isEmpty

/-- `bytes.split(sep, maxsplit)` -/
def splitMax (sep : UInt8) : Nat → List UInt8 → List (List UInt8)
  | 0, bytes => [bytes]
  | _ + 1, [] => [[]]
  | n + 1, b :: t =>
    if b = sep then [] :: splitMax sep n t
    else (splitMax sep (n + 1) t).modifyHead (b :: ·)

def strip (bytes : List UInt8) : List UInt8 :=
  ((bytes.dropWhile isSpace).reverse.dropWhile isSpace).reverse

def isDigit (b : UInt8) : Bool := 48 ≤ b.toNat && b.toNat ≤ 57

/-- The digits, among which single underscores may stand. -/
def intDigits (bytes : List UInt8) : Option (List Nat) :=
  let groups := bytes.splitOn 0x5f
  if groups.all fun g => !g.isEmpty && g.all isDigit then
    some (groups.flatten.map fun b => b.toNat - 48)
  else none

/-- `sys.int_info.default_max_str_digits` -/
def maxStrDigits : Nat := 4300

def value (digits : List Nat) : Nat := digits.foldl (fun n d => 10 * n + d) 0

/-- `int(bytes)`, where `none` is its `ValueError`. -/
def toInt (bytes : List UInt8) : Option Int :=
  let signed : Bool × List UInt8 :=
    match strip bytes with
    | 0x2d :: t => (true, t)
    | 0x2b :: t => (false, t)
    | t => (false, t)
  match intDigits signed.2 with
  | some digits =>
    if digits.length ≤ maxStrDigits then
      some (if signed.1 then -(value digits : Int) else value digits)
    else none
  | none => none

/-- The decimal digits of a number, the first of them first. -/
def digits (n : Nat) : List Nat := if n = 0 then [0] else (Nat.digits 10 n).reverse

def decimal (n : Nat) : List UInt8 := (digits n).map fun d => UInt8.ofNat (48 + d)

/-! ## Splitting -/

variable {sep : UInt8} {bytes word : List UInt8}

theorem splitMax_append (h : sep ∉ word) (n : Nat) (rest : List UInt8) :
    splitMax sep (n + 1) (word ++ sep :: rest) = word :: splitMax sep n rest := by
  induction word with
  | nil =>
    show splitMax sep (n + 1) (sep :: rest) = _
    rw [splitMax, if_pos rfl]
  | cons b word ih =>
    rw [List.mem_cons, not_or] at h
    rw [List.cons_append, splitMax, if_neg (Ne.symm h.1), ih h.2]
    rfl

/-- At most as many pieces as there are separators, and one. -/
theorem length_splitMax_le (sep : UInt8) : ∀ (n : Nat) (bytes : List UInt8),
    (splitMax sep n bytes).length ≤ bytes.count sep + 1
  | 0, bytes => by
    rw [splitMax, List.length_singleton]
    omega
  | n + 1, [] => Nat.le_refl _
  | n + 1, b :: t => by
    rw [splitMax]
    by_cases h : b = sep
    · have ih := length_splitMax_le sep n t
      rw [if_pos h, List.length_cons, h, List.count_cons_self]
      omega
    · have ih := length_splitMax_le sep (n + 1) t
      rw [if_neg h, List.length_modifyHead, List.count_cons_of_ne h]
      exact ih

/-- A word is not empty, and has no white space. -/
def IsWord (word : List UInt8) : Prop := word ≠ [] ∧ ∀ b ∈ word, isSpace b = false

instance : Decidable (IsWord word) := inferInstanceAs (Decidable (_ ∧ _))

theorem words_cons (h : IsWord word) (rest : List UInt8) :
    words (word ++ 0x20 :: rest) = word :: words rest := by
  unfold words
  rw [List.splitOnP_append_cons_of_forall_mem h.2 0x20 rfl, List.filter_cons_of_pos]
  simp [h.1]

theorem words_single (h : IsWord word) : words word = [word] := by
  unfold words
  rw [List.splitOnP_eq_singleton h.2, List.filter_cons_of_pos]
  · rfl
  · simp [h.1]

/-! ## Numbers -/

theorem digits_lt {n d : Nat} (h : d ∈ digits n) : d < 10 := by
  unfold digits at h
  split at h
  next =>
    rw [List.mem_singleton.mp h]
    decide
  next => exact Nat.digits_lt_base (by decide) (List.mem_reverse.mp h)

theorem digits_ne_nil (n : Nat) : digits n ≠ [] := by
  unfold digits
  split
  next => exact List.cons_ne_nil _ _
  next h => rwa [Ne, List.reverse_eq_nil_iff, Nat.digits_eq_nil_iff_eq_zero]

theorem value_digits (n : Nat) : value (digits n) = n := by
  unfold digits
  split
  next h => exact h.symm
  next h =>
    unfold value
    rw [List.foldl_reverse]
    have hdigits := Nat.ofDigits_digits 10 n
    rw [Nat.ofDigits_eq_foldr] at hdigits
    refine Eq.trans ?_ hdigits
    refine congrArg (fun f => List.foldr f 0 (Nat.digits 10 n)) ?_
    funext d m
    exact Nat.add_comm (10 * m) d

theorem toNat_digit {d : Nat} (h : d < 10) : (UInt8.ofNat (48 + d)).toNat = 48 + d := by
  rw [UInt8.toNat_ofNat']
  exact Nat.mod_eq_of_lt (by omega)

theorem decimal_byte {n : Nat} {b : UInt8} (h : b ∈ decimal n) :
    48 ≤ b.toNat ∧ b.toNat ≤ 57 := by
  obtain ⟨d, hd, rfl⟩ := List.mem_map.mp h
  have hlt := digits_lt hd
  have hbyte := toNat_digit hlt
  omega

theorem decimal_ne_nil (n : Nat) : decimal n ≠ [] := by
  unfold decimal
  rw [Ne, List.map_eq_nil_iff]
  exact digits_ne_nil n

theorem notSpace_of_digit {b : UInt8} (h : 48 ≤ b.toNat ∧ b.toNat ≤ 57) : isSpace b = false := by
  have hneg : ¬ ((9 ≤ b.toNat ∧ b.toNat ≤ 13) ∨ b.toNat = 32) := by omega
  simpa [isSpace] using hneg

theorem strip_of_noSpace (h : ∀ b ∈ bytes, isSpace b = false) : strip bytes = bytes := by
  have hdrop : ∀ {l : List UInt8}, (∀ b ∈ l, isSpace b = false) → l.dropWhile isSpace = l := by
    intro l hl
    cases l with
    | nil => rfl
    | cons b l => rw [List.dropWhile_cons, hl b List.mem_cons_self, if_neg Bool.false_ne_true]
  unfold strip
  rw [hdrop h, hdrop fun b hb => h b (List.mem_reverse.mp hb), List.reverse_reverse]

theorem intDigits_decimal (n : Nat) : intDigits (decimal n) = some (digits n) := by
  have hsep : (0x5f : UInt8) ∉ decimal n := by
    intro hmem
    exact absurd (decimal_byte hmem).2 (by decide)
  have hall : ∀ b ∈ decimal n, isDigit b = true := by
    intro b hb
    have hdigit := decimal_byte hb
    simpa [isDigit] using hdigit
  have hback : (decimal n).map (fun b => b.toNat - 48) = digits n := by
    unfold decimal
    rw [List.map_map]
    refine (List.map_congr_left ?_).trans (List.map_id' _)
    intro d hd
    have hlt := digits_lt hd
    show (UInt8.ofNat (48 + d)).toNat - 48 = d
    rw [toNat_digit hlt, Nat.add_sub_cancel_left]
  have hgroups : [decimal n].all (fun g => !g.isEmpty && g.all isDigit) = true := by
    rw [List.all_cons, List.all_nil, Bool.and_true, Bool.and_eq_true, List.all_eq_true]
    exact ⟨by simp [decimal_ne_nil], hall⟩
  unfold intDigits
  rw [List.splitOn_eq_singleton hsep]
  dsimp only
  rw [if_pos hgroups, List.flatten_singleton, hback]

theorem toInt_decimal {n : Nat} (h : (digits n).length ≤ maxStrDigits) :
    toInt (decimal n) = some (n : Int) := by
  have hstrip : strip (decimal n) = decimal n :=
    strip_of_noSpace fun b hb => notSpace_of_digit (decimal_byte hb)
  have hsigned : (match decimal n with
      | 0x2d :: t => (true, t)
      | 0x2b :: t => (false, t)
      | t => (false, t)) = (false, decimal n) := by
    split
    next t ht =>
      have hdigit := decimal_byte (n := n) (b := 0x2d) (by rw [ht]; exact List.mem_cons_self)
      exact absurd hdigit.1 (by decide)
    next t ht =>
      have hdigit := decimal_byte (n := n) (b := 0x2b) (by rw [ht]; exact List.mem_cons_self)
      exact absurd hdigit.1 (by decide)
    next => rfl
  unfold toInt
  rw [hstrip, hsigned]
  dsimp only
  rw [intDigits_decimal]
  dsimp only
  rw [if_pos h, if_neg Bool.false_ne_true, value_digits]

end BackgroundAgents.Bytes

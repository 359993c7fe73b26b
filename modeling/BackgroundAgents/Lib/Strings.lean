import Mathlib.Data.List.Basic

/-!
# Text as JavaScript and SQL see it

Texts are lists of characters. The operations are the few of the two languages
that programs normalize and match text with: what `String.prototype.trim`
strips, SQL's `trim` and `lower`, and `LIKE` with the escape character `\`,
which folds the case of ASCII letters.
-/

namespace BackgroundAgents.Strings

/-- What `String.prototype.trim` strips. -/
def isWhiteSpace (c : Char) : Bool :=
  [0x9, 0xA, 0xB, 0xC, 0xD, 0x20, 0xA0, 0x1680, 0x2028, 0x2029, 0x202F, 0x205F, 0x3000,
      0xFEFF].contains c.toNat ||
    (0x2000 ≤ c.toNat && c.toNat ≤ 0x200A)

/-- Strips a text at both ends. -/
def stripped (p : Char → Bool) (t : List Char) : List Char :=
  ((t.dropWhile p).reverse.dropWhile p).reverse

/-- `String.prototype.trim` -/
def trim (t : List Char) : List Char := stripped isWhiteSpace t

/-- SQL's `trim`, which strips spaces. -/
def sqlTrim (t : List Char) : List Char := stripped (· = ' ') t

/-- SQL's `lower`, which folds ASCII. -/
def sqlLower (t : List Char) : List Char := t.map Char.toLower

/-- `text LIKE pattern ESCAPE '\'` -/
def like : List Char → List Char → Bool
  | [], text => text.isEmpty
  | '%' :: pattern, text => text.tails.any (like pattern)
  | '_' :: pattern, text =>
    match text with
    | [] => false
    | _ :: text => like pattern text
  | '\\' :: c :: pattern, text =>
    match text with
    | [] => false
    | d :: text => c.toLower = d.toLower && like pattern text
  | c :: pattern, text =>
    match text with
    | [] => false
    | d :: text => c.toLower = d.toLower && like pattern text

end BackgroundAgents.Strings

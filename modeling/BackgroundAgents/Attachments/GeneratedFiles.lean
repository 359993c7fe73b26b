import BackgroundAgents.Lib.Strings
import BackgroundAgents.Lib.Uri

/-!
# Names of generated files

Which file names are stored, and the download header that carries one: a quoted ASCII
fallback, and the name itself in percent notation. The normal form of Unicode and its
category of format controls are tables of the platform (`Unicode`). Texts are lists of
UTF-16 units.
-/

namespace BackgroundAgents.Attachments.GeneratedFiles

abbrev Text := List UInt16

structure Unicode where
  /-- `normalize("NFC")` -/
  nfc : Text → Text
  /-- `\p{Cf}` -/
  formatControl : Char → Bool

def generatedFileMaxFilenameBytes : ℕ := 255

def quote : UInt16 := 0x22
def backslash : UInt16 := 0x5c
def semicolon : UInt16 := 0x3b
def underscore : UInt16 := 0x5f

/-- A text of ASCII characters. -/
def ascii (cs : List Char) : Text := Utf16.encode cs

/-! ## Accepted names -/

variable (unicode : Unicode)

/-- Joiners are allowed, other controls and both slashes are not. -/
def forbidden (c : Char) : Bool :=
  let control := c.toNat ≤ 0x1f || (0x7f ≤ c.toNat && c.toNat ≤ 0x9f) || unicode.formatControl c
  (control && c.toNat ≠ 0x200c && c.toNat ≠ 0x200d) || c = '/' || c.toNat = 0x5c

/-- A lone surrogate is no control. -/
def hasForbiddenFilenameCharacters (filename : Text) : Bool :=
  (Utf16.decodeLossy filename).any (forbidden unicode)

/-- `new TextEncoder().encode(filename).byteLength` -/
def byteLength (filename : Text) : ℕ :=
  ((Utf16.decodeLossy filename).flatMap fun c => Utf8.encodePoint c.toNat).length

def isSafeFilename (filename : Text) : Bool :=
  if filename = [] || filename = ascii ['.'] || filename = ascii ['.', '.'] ||
      hasForbiddenFilenameCharacters unicode filename then
    false
  else
    match Uri.encodeURIComponent filename with
    | none => false
    | some _ => byteLength filename ≤ generatedFileMaxFilenameBytes

/-- No white space is a surrogate. -/
def isWhiteSpace (u : UInt16) : Bool := Strings.isWhiteSpace (Char.ofNat u.toNat)

def trim (t : Text) : Text :=
  ((t.dropWhile isWhiteSpace).reverse.dropWhile isWhiteSpace).reverse

/-- `generatedFileFilenameSchema` -/
def accepted (filename : Text) : Bool :=
  filename = trim (unicode.nfc filename) && isSafeFilename unicode filename

/-! ## The header -/

def asciiFilename (filename : Text) : Text :=
  (Utf16.decodeLossy filename).map fun c =>
    if c.toNat > 126 then underscore else UInt16.ofNat c.toNat

/-- `.replace(/"/g, '\\"')` -/
def escapeQuotes (t : Text) : Text :=
  t.flatMap fun u => if u = quote then [backslash, quote] else [u]

/-- `.replace(/[!'()*]/g, …)` -/
def encodeMarks (t : Text) : Text :=
  t.flatMap fun u =>
    if [0x21, 0x27, 0x28, 0x29, 0x2a].contains u.toNat then Uri.percent (UInt8.ofNat u.toNat)
    else [u]

/-- `attachment; filename="` -/
def opening : Text :=
  ascii ['a', 't', 't', 'a', 'c', 'h', 'm', 'e', 'n', 't', ';', ' ', 'f', 'i', 'l', 'e', 'n', 'a',
    'm', 'e', '='] ++ [quote]

/-- `"; filename*=UTF-8''` -/
def middle : Text :=
  quote :: ascii [';', ' ', 'f', 'i', 'l', 'e', 'n', 'a', 'm', 'e', '*', '=', 'U', 'T', 'F', '-',
    '8'] ++ [0x27, 0x27]

/-- `none` where the schema or the encoding throws. -/
def formatGeneratedFileDisposition (filename : Text) : Option Text :=
  if accepted unicode filename then
    (Uri.encodeURIComponent filename).map fun encoded =>
      opening ++ (escapeQuotes (asciiFilename filename) ++ (middle ++ encodeMarks encoded))
  else none

/-! ## Its parser -/

def lower (u : UInt16) : UInt16 := if 0x41 ≤ u.toNat ∧ u.toNat ≤ 0x5a then u + 0x20 else u

/-- The literal at the head of a text, up to the case of its letters; what follows. -/
def afterLiteral : Text → Text → Option Text
  | [], t => some t
  | u :: literal, v :: t => if lower u = lower v then afterLiteral literal t else none
  | _ :: _, [] => none

/-- `(?:[^"\\]|\\")*`, and what follows. The next unit decides each round, and none begins with
the quote that has to follow, so the longest run is the only one. -/
def quotedRun : Text → Text × Text
  | [] => ([], [])
  | u :: t =>
    if u = quote then ([], u :: t)
    else if u = backslash then
      match t with
      | [] => ([], [u])
      | v :: t =>
        if v = quote then (u :: v :: (quotedRun t).1, (quotedRun t).2) else ([], u :: v :: t)
    else (u :: (quotedRun t).1, (quotedRun t).2)

/-- `.replace(/\\"/g, '"')` -/
def unescapeQuotes : Text → Text
  | [] => []
  | [u] => [u]
  | u :: v :: t =>
    if u = backslash ∧ v = quote then quote :: unescapeQuotes t else u :: unescapeQuotes (v :: t)

def parseGeneratedFileDisposition (value : Text) : Option Text := do
  let rest ← afterLiteral opening value
  let run := quotedRun rest
  let encoded ← afterLiteral middle run.2
  if encoded = [] ∨ semicolon ∈ encoded then none
  else do
    let filename ← Uri.decodeURIComponent encoded
    if accepted unicode filename ∧ unescapeQuotes run.1 = asciiFilename filename then some filename
    else none

end BackgroundAgents.Attachments.GeneratedFiles

import Mathlib.Data.List.Sort
import BackgroundAgents.Lib.Bytes
import BackgroundAgents.Lib.Uri

/-!
# Signed service requests

The `sig1` headers: a request is written as one canonical string, and the string is signed
with the secret of the service. What the platform computes (the digest and the HMAC, `URL`,
`toUpperCase`) is a `Platform`. Texts are lists of UTF-16 units; the entries of a query are
lists of characters, as `URLSearchParams` has no others.
-/

namespace BackgroundAgents.Services

abbrev Text := List UInt16

/-- A text of ASCII characters. -/
def ascii (cs : List Char) : Text := Utf16.encode cs

def lineFeed : UInt16 := 0x0a
def dot : UInt16 := 0x2e

/-- `SIG1_PREFIX` -/
def sig1 : Text := ascii ['s', 'i', 'g', '1']

/-- `TOKEN_VALIDITY_MS` -/
def tokenValidityMs : ℤ := 300000

/-! ## The platform -/

/-- A parsed URL, which has no line feed. -/
structure Url where
  pathname : Text
  search : Text
  pathname_line : lineFeed ∉ pathname

structure Platform where
  /-- `new URL(url)`; `none` where it throws. -/
  parseUrl : Text → Option Url
  toUpperCase : Text → Text
  upper_line : ∀ t, lineFeed ∉ t → lineFeed ∉ toUpperCase t
  /-- `crypto.subtle.digest("SHA-256", …)` -/
  digest : List UInt8 → List UInt8
  /-- `crypto.subtle.sign("HMAC", …)`; `none` where the key is refused. -/
  hmac : (key data : List UInt8) → Option (List UInt8)
  hmac_length : ∀ key data mac, hmac key data = some mac → mac.length = 32

/-- `new TextEncoder().encode(text)` -/
def utf8 (cs : List Char) : List UInt8 := cs.flatMap fun c => Utf8.encodePoint c.toNat

def encodeText (t : Text) : List UInt8 := utf8 (Utf16.decodeLossy t)

def lowerHex (n : ℕ) : UInt16 := UInt16.ofNat (if n < 10 then 0x30 + n else 0x57 + n)

def bytesToHex (bytes : List UInt8) : Text :=
  bytes.flatMap fun b => [lowerHex (b.toNat / 16), lowerHex (b.toNat % 16)]

/-- `String(n)` of an integer below `10^21` -/
def decimal (n : ℕ) : Text := (Bytes.digits n).map fun d => UInt16.ofNat (48 + d)

/-! ## Queries -/

/-- The digits behind a percent sign, as far as there are two. -/
def percentDecode : List UInt8 → List UInt8
  | b :: c :: d :: bytes =>
    if b = 0x25 then
      match Uri.hexValue c.toUInt16, Uri.hexValue d.toUInt16 with
      | some high, some low => UInt8.ofNat (16 * high + low) :: percentDecode bytes
      | _, _ => b :: percentDecode (c :: d :: bytes)
    else b :: percentDecode (c :: d :: bytes)
  | bytes => bytes

def decodeComponent (bytes : List UInt8) : List Char :=
  let spaced := bytes.map fun b => if b = 0x2b then 0x20 else b
  (Utf8.decodeReplace (percentDecode spaced)).map Char.ofNat

abbrev Entry := List Char × List Char

/-- `Array.from(new URLSearchParams(search).entries())` -/
def searchEntries (search : Text) : List Entry :=
  let query := if search.head? = some 0x3f then search.tail else search
  (((encodeText query).splitOn 0x26).filter fun piece => piece ≠ []).map fun piece =>
    (decodeComponent (piece.takeWhile fun b => b ≠ 0x3d),
      decodeComponent ((piece.dropWhile fun b => b ≠ 0x3d).drop 1))

def compareBytes : List UInt8 → List UInt8 → ℤ
  | x :: xs, y :: ys => if x ≠ y then (x.toNat : ℤ) - y.toNat else compareBytes xs ys
  | xs, ys => (xs.length : ℤ) - ys.length

def compareUtf8Bytes (a b : List Char) : ℤ := compareBytes (utf8 a) (utf8 b)

/-- `${key}\0${value}` -/
def joinedKey (entry : Entry) : List Char := entry.1 ++ Char.ofNat 0 :: entry.2

/-- The order of `entries.sort`. -/
def EntryLe (a b : Entry) : Prop := compareUtf8Bytes (joinedKey a) (joinedKey b) ≤ 0

instance : DecidableRel EntryLe := fun a b =>
  inferInstanceAs (Decidable (compareUtf8Bytes (joinedKey a) (joinedKey b) ≤ 0))

def ampersand : UInt16 := 0x26
def equals : UInt16 := 0x3d

/-- `${encodeURIComponent(key)}=${encodeURIComponent(value)}` -/
def encodeEntry (entry : Entry) : Text :=
  Uri.encode Uri.unreserved entry.1 ++ equals :: Uri.encode Uri.unreserved entry.2

/-- The sort of JavaScript is stable, as this one. -/
def canonicalizeQuery (search : Text) : Text :=
  [ampersand].intercalate (((searchEntries search).insertionSort EntryLe).map encodeEntry)

/-! ## Signing -/

variable (platform : Platform)

structure CanonicalRequest where
  service : Text
  timestampMs : ℕ
  nonce : Text
  method : Text
  pathname : Text
  canonicalQuery : Text
  bodySha256Hex : Text
  actor : Text
  deriving DecidableEq, Repr

def buildCanonicalRequestString (p : CanonicalRequest) : Text :=
  sig1 ++ lineFeed :: (p.service ++ lineFeed :: (decimal p.timestampMs ++ lineFeed ::
    (p.nonce ++ lineFeed :: (platform.toUpperCase p.method ++ lineFeed ::
      (p.pathname ++ lineFeed :: (p.canonicalQuery ++ lineFeed ::
        (p.bodySha256Hex ++ lineFeed :: p.actor)))))))

inductive Body where
  | bytes (data : List UInt8)
  | text (data : Text)
  deriving DecidableEq, Repr

def sha256Hex : Body → Text
  | .bytes data => bytesToHex (platform.digest data)
  | .text data => bytesToHex (platform.digest (encodeText data))

def computeHmacHex (data secret : Text) : Option Text :=
  (platform.hmac (encodeText secret) (encodeText data)).map bytesToHex

/-- `generateNonce`, of eight random bytes. -/
def generateNonce (random : List UInt8) : Text := bytesToHex random

def signCanonicalRequest (service secret : Text) (timestampMs : ℕ) (nonce method url
    bodySha256Hex actor : Text) : Option Text := do
  let parsed ← platform.parseUrl url
  let canonical := buildCanonicalRequestString platform {
    service, timestampMs, nonce, method
    pathname := parsed.pathname
    canonicalQuery := canonicalizeQuery parsed.search
    bodySha256Hex, actor }
  computeHmacHex platform canonical secret

structure OutboundRequest where
  service : Text
  secret : Text
  method : Text
  url : Text
  body : Option Body := none
  actor : Option Text := none
  traceId : Option Text := none

/-- `none` where a call of the platform throws. -/
def buildServiceAuthHeaders (now : ℕ) (random : List UInt8) (p : OutboundRequest) :
    Option (List (String × Text)) := do
  let nonce := generateNonce random
  let actor := p.actor.getD []
  let bodySha256Hex := sha256Hex platform (p.body.getD (.text []))
  let signature ← signCanonicalRequest platform p.service p.secret now nonce p.method p.url
    bodySha256Hex actor
  return [("X-OpenInspect-Service", p.service),
    ("X-OpenInspect-Service-Signature",
      sig1 ++ dot :: (decimal now ++ dot :: (nonce ++ dot :: signature)))] ++
    (if actor ≠ [] then [("X-OpenInspect-Actor", actor)] else []) ++
    ((p.traceId.filter (· ≠ [])).map fun traceId => ("x-trace-id", traceId)).toList

/-! ## Verification -/

inductive ServiceSignatureFailure where
  | format
  | expired
  | mismatch
  deriving DecidableEq, Repr

def isHex (u : UInt16) : Bool :=
  (0x30 ≤ u.toNat && u.toNat ≤ 0x39) || (0x61 ≤ u.toNat && u.toNat ≤ 0x66)

def isDigit (u : UInt16) : Bool := 0x30 ≤ u.toNat && u.toNat ≤ 0x39

/-- `NONCE_PATTERN` -/
def noncePattern (t : Text) : Bool := t ≠ [] && t.length ≤ 64 && t.all isHex

/-- `TIMESTAMP_PATTERN` -/
def timestampPattern (t : Text) : Bool := t ≠ [] && t.length ≤ 16 && t.all isDigit

/-- `Number` of a decimal of at most 16 digits: from `2^53` on, every other integer is one. -/
def number (t : Text) : ℕ :=
  let n := Bytes.value (t.map fun u => u.toNat - 48)
  if n < 2 ^ 53 ∨ n % 2 = 0 then n else if n % 4 = 1 then n - 1 else n + 1

structure ParsedHeader where
  timestampMs : ℕ
  nonce : Text
  signature : Text
  deriving DecidableEq, Repr

def parseServiceSignatureHeader (now : ℤ) (header : Text) :
    Except ServiceSignatureFailure ParsedHeader :=
  match header.splitOn dot with
  | [tag, timestampPart, nonce, signature] =>
    if tag ≠ sig1 then .error .format
    else if !timestampPattern timestampPart then .error .format
    else if number timestampPart ≤ 0 then .error .format
    else if !noncePattern nonce || !(signature.length = 64 && signature.all isHex) then
      .error .format
    else if |now - number timestampPart| > tokenValidityMs then .error .expired
    else .ok { timestampMs := number timestampPart, nonce, signature }
  | _ => .error .format

/-- The loop over `charCodeAt`. -/
def difference : Text → Text → ℕ
  | a :: as, b :: bs => (a.toNat ^^^ b.toNat) ||| difference as bs
  | _, _ => 0

def timingSafeEqual (a b : Text) : Bool := a.length = b.length && difference a b = 0

structure InboundRequest where
  signatureHeader : Text
  service : Text
  secret : Text
  method : Text
  url : Text
  bodySha256Hex : Text
  actor : Text

/-- `none` where a call of the platform throws. -/
def verifyServiceSignature (now : ℤ) (p : InboundRequest) :
    Option (Except ServiceSignatureFailure (ℕ × Text)) :=
  match parseServiceSignatureHeader now p.signatureHeader with
  | .error reason => some (.error reason)
  | .ok parsed => do
    let expected ← signCanonicalRequest platform p.service p.secret parsed.timestampMs
      parsed.nonce p.method p.url p.bodySha256Hex p.actor
    if !timingSafeEqual parsed.signature expected then return .error .mismatch
    else return .ok (parsed.timestampMs, parsed.nonce)

end BackgroundAgents.Services

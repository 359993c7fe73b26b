import BackgroundAgents.Lib.Bytes
import BackgroundAgents.Lib.Utf8
import BackgroundAgents.Lib.Dictionaries

/-!
# Git's NUL-separated listings

`_parse_raw_changes` reads the output of `git diff --raw -z`, `_parse_numstat` that of
`git diff --numstat -z`. A record of the first is a header and one path, or two when
the status is `R` or `C`; a record of the second is one field, or three when its third
column is empty. Both parsers file what they read under the decoded paths, so that a
change finds its own metadata and its own line statistics.
-/

namespace BackgroundAgents.Sandbox.GitListings

open Bytes (words splitMax toInt)
open Utf8 (decode)

/-- A decoded text, as its code points. -/
abbrev Text := List Nat

/-- `(old_path, path)` -/
abbrev Key := Option Text × Text

inductive DiffFileStatus where
  | ADDED
  | MODIFIED
  | DELETED
  | TYPE_CHANGED
  | UNMERGED
  | RENAMED
  | SUBMODULE
  deriving DecidableEq, Repr

structure ChangedPath where
  status : DiffFileStatus
  path : Text
  oldPath : Option Text
  deriving DecidableEq, Repr

structure TrackedMetadata where
  oldMode : Text
  newMode : Text
  oldSha : Text
  newSha : Text
  deriving DecidableEq, Repr

/-- `(additions, deletions)`, which a binary file does not have. -/
abbrev LineStats := Option Int × Option Int

/-- `DiffCaptureError`, by its message. -/
inductive DiffCaptureError where
  | malformedRawDiffRecord
  | malformedRawRenameRecord
  | unsupportedStatusLetter (letter : Option Nat)
  | malformedNumstatRecord
  | malformedRenameNumstatRecord
  deriving DecidableEq, Repr

def STATUS_BY_LETTER : List (Nat × DiffFileStatus) :=
  [('A'.toNat, .ADDED), ('M'.toNat, .MODIFIED), ('D'.toNat, .DELETED), ('T'.toNat, .TYPE_CHANGED),
    ('U'.toNat, .UNMERGED), ('R'.toNat, .RENAMED), ('C'.toNat, .RENAMED)]

/-- The fields of a listing, less the empty one after the last NUL. -/
def splitFields (raw : List UInt8) : List (List UInt8) :=
  let fields := raw.splitOn 0
  if fields.getLast? = some [] then fields.dropLast else fields

/-! ## `_parse_raw_changes` -/

structure Header where
  oldMode : List UInt8
  newMode : List UInt8
  oldSha : List UInt8
  newSha : List UInt8
  letter : Option Nat
  deriving DecidableEq, Repr

def readHeader (field : List UInt8) : Except DiffCaptureError Header :=
  match words field with
  | [oldMode, newMode, oldSha, newSha, code] =>
    if oldMode.head? = some 0x3a then
      .ok { oldMode := oldMode.tail
            newMode := newMode
            oldSha := oldSha
            newSha := newSha
            letter := (decode code).head? }
    else .error .malformedRawDiffRecord
  | _ => .error .malformedRawDiffRecord

namespace Header

def hasOldPath (header : Header) : Bool :=
  header.letter = some 'R'.toNat || header.letter = some 'C'.toNat

def status (header : Header) : Except DiffCaptureError DiffFileStatus :=
  match header.letter.bind (Dict.get? STATUS_BY_LETTER) with
  | some status => .ok status
  | none => .error (.unsupportedStatusLetter header.letter)

def metadata (header : Header) : TrackedMetadata where
  oldMode := decode header.oldMode
  newMode := decode header.newMode
  oldSha := decode header.oldSha
  newSha := decode header.newSha

end Header

/-- The loop of `_parse_raw_changes` over the fields that are left. -/
def readRawChanges : List (List UInt8) → List ChangedPath → List (Key × TrackedMetadata) →
    Except DiffCaptureError (List ChangedPath × List (Key × TrackedMetadata))
  | [], changes, metadata => .ok (changes, metadata)
  | field :: rest, changes, metadata =>
    match readHeader field with
    | .error e => .error e
    | .ok header =>
      if header.hasOldPath then
        match rest with
        | oldPath :: path :: rest =>
          match header.status with
          | .error e => .error e
          | .ok status =>
            readRawChanges rest
              (changes ++
                [{ status := status, path := decode path, oldPath := some (decode oldPath) }])
              (Dict.set metadata (some (decode oldPath), decode path) header.metadata)
        | _ => .error .malformedRawRenameRecord
      else
        match rest with
        | path :: rest =>
          match header.status with
          | .error e => .error e
          | .ok status =>
            readRawChanges rest
              (changes ++ [{ status := status, path := decode path, oldPath := none }])
              (Dict.set metadata (none, decode path) header.metadata)
        | [] => .error .malformedRawDiffRecord

def parseRawChanges (raw : List UInt8) :
    Except DiffCaptureError (List ChangedPath × List (Key × TrackedMetadata)) :=
  readRawChanges (splitFields raw) [] []

/-! ## `_parse_numstat` -/

def parseStatColumns (additions deletions : List UInt8) : Except DiffCaptureError LineStats :=
  if additions = [0x2d] ∨ deletions = [0x2d] then .ok (none, none)
  else
    match toInt additions, toInt deletions with
    | some additions, some deletions => .ok (some additions, some deletions)
    | _, _ => .error .malformedNumstatRecord

/-- The loop of `_parse_numstat` over the fields that are left. -/
def readNumstat : List (List UInt8) → List (Key × LineStats) →
    Except DiffCaptureError (List (Key × LineStats))
  | [], stats => .ok stats
  | field :: rest, stats =>
    match splitMax 0x09 2 field with
    | [additions, deletions, path] =>
      match parseStatColumns additions deletions with
      | .error e => .error e
      | .ok lineStats =>
        if path ≠ [] then readNumstat rest (Dict.set stats (none, decode path) lineStats)
        else
          match rest with
          | oldPath :: path :: rest =>
            readNumstat rest (Dict.set stats (some (decode oldPath), decode path) lineStats)
          | _ => .error .malformedRenameNumstatRecord
    | _ => .error .malformedNumstatRecord

def parseNumstat (raw : List UInt8) : Except DiffCaptureError (List (Key × LineStats)) :=
  readNumstat (splitFields raw) []

/-! ## What Git writes -/

/-- A mode, an object id or the score of a status: no white space and no NUL. -/
def Plain (bytes : List UInt8) : Prop := ∀ b ∈ bytes, Bytes.isSpace b = false ∧ b ≠ 0

instance (bytes : List UInt8) : Decidable (Plain bytes) := inferInstanceAs (Decidable (∀ _ ∈ _, _))

abbrev Word := { bytes : List UInt8 // bytes ≠ [] ∧ Plain bytes }

/-- A path may hold any byte but NUL. -/
abbrev Path := { bytes : List UInt8 // bytes ≠ [] ∧ 0 ∉ bytes }

/-- A number of lines that `int` reads. -/
abbrev Count := { n : Nat // (Bytes.digits n).length ≤ Bytes.maxStrDigits }

/-- The status letter of a change, and the paths that it has. -/
inductive Paths where
  | ordinary (letter : Char) (known : letter ∈ ['A', 'M', 'D', 'T', 'U']) (path : Path)
  | moved (letter : Char) (known : letter ∈ ['R', 'C']) (oldPath path : Path)
  deriving DecidableEq

structure GitChange where
  oldMode : Word
  newMode : Word
  oldSha : Word
  newSha : Word
  score : { bytes : List UInt8 // Plain bytes }
  paths : Paths
  /-- Added and deleted lines, unless the file is binary. -/
  lines : Option (Count × Count)
  deriving DecidableEq

namespace Paths

def letter : Paths → Char
  | ordinary letter _ _ => letter
  | moved letter _ _ _ => letter

def oldPath : Paths → Option Path
  | ordinary _ _ _ => none
  | moved _ _ oldPath _ => some oldPath

def path : Paths → Path
  | ordinary _ _ path => path
  | moved _ _ _ path => path

def withPath : Paths → Path → Paths
  | ordinary letter known _, path => ordinary letter known path
  | moved letter known oldPath _, path => moved letter known oldPath path

end Paths

/-- What the letter of a status stands for. -/
def statusOf : Char → DiffFileStatus
  | 'A' => .ADDED
  | 'M' => .MODIFIED
  | 'D' => .DELETED
  | 'T' => .TYPE_CHANGED
  | 'U' => .UNMERGED
  | _ => .RENAMED

/-- The bytes of a field and its NUL. -/
def terminated (field : List UInt8) : List UInt8 := field ++ [0]

namespace GitChange

variable (change : GitChange)

def withPath (path : Path) : GitChange := { change with paths := change.paths.withPath path }

def header : List UInt8 :=
  0x3a :: change.oldMode.val ++ 0x20 :: (change.newMode.val ++ 0x20 :: (change.oldSha.val ++
    0x20 :: (change.newSha.val ++
      0x20 :: (UInt8.ofNat change.paths.letter.toNat :: change.score.val))))

def columns : List UInt8 :=
  match change.lines with
  | some (added, deleted) =>
    Bytes.decimal added.val ++ 0x09 :: (Bytes.decimal deleted.val ++ [0x09])
  | none => [0x2d, 0x09, 0x2d, 0x09]

/-- What stands before the last path in a record of `--raw -z`. -/
def rawLeading : List UInt8 :=
  match change.paths.oldPath with
  | none => terminated change.header
  | some oldPath => terminated change.header ++ terminated oldPath.val

/-- What stands before the last path in a record of `--numstat -z`. -/
def numstatLeading : List UInt8 :=
  match change.paths.oldPath with
  | none => change.columns
  | some oldPath => terminated change.columns ++ terminated oldPath.val

def rawRecord : List UInt8 := change.rawLeading ++ terminated change.paths.path.val

def numstatRecord : List UInt8 := change.numstatLeading ++ terminated change.paths.path.val

/-! ### What the change is -/

def key : Key := (change.paths.oldPath.map fun p => decode p.val, decode change.paths.path.val)

def changedPath : ChangedPath where
  status := statusOf change.paths.letter
  path := change.key.2
  oldPath := change.key.1

def metadata : TrackedMetadata where
  oldMode := decode change.oldMode.val
  newMode := decode change.newMode.val
  oldSha := decode change.oldSha.val
  newSha := decode change.newSha.val

def lineStats : LineStats :=
  match change.lines with
  | some (added, deleted) => (some (added.val : Int), some (deleted.val : Int))
  | none => (none, none)

end GitChange

def encodeRaw (changes : List GitChange) : List UInt8 := changes.flatMap GitChange.rawRecord

def encodeNumstat (changes : List GitChange) : List UInt8 :=
  changes.flatMap GitChange.numstatRecord

end BackgroundAgents.Sandbox.GitListings

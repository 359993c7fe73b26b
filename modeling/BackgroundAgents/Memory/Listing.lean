import BackgroundAgents.Lib.Lexicographic
import BackgroundAgents.Lib.StableSort
import BackgroundAgents.Lib.Strings
import BackgroundAgents.Lib.Table
import BackgroundAgents.Lib.Utf8
import BackgroundAgents.Lib.Utf16
import BackgroundAgents.Memory.Types

/-!
# Lists of memory records

`listPartitions` reads one page of the records of many partitions. Where one statement can
bind all the partitions, it cuts the page; else the partitions are read in chunks, each cut
to the end of the page, and merged under the same order. `singleQuery` is the page of one
query over all the partitions, without a limit to what it binds.

A fragment carries the values it binds and what it says of a row. Times are in milliseconds.
-/

namespace BackgroundAgents.Memory.Listing

def MAX_D1_QUERY_PARAMETERS : Nat := 100

/-- Candidate chunks in one batch. -/
def LIST_CHUNKS_PER_BATCH : Nat := 4

/-! ## The tables -/

/-- An id as the stores draw it: a tag and hexadecimal digits, all ASCII. -/
def Id : Type := {cs : List Char // ∀ c ∈ cs, c.toNat < 0x80}

instance : DecidableEq Id := fun a b => decidable_of_iff (a.1 = b.1) Subtype.ext_iff.symm

/-- What JavaScript compares. -/
def Id.units (id : Id) : List Nat := (Utf16.encode id.1).map UInt16.toNat

/-- What SQL compares. -/
def Id.bytes (id : Id) : List Nat := (Utf8.encode (id.1.map Char.toNat)).map UInt8.toNat

/-- The partition of a row and the names it is displayed with, as the `CHECK` leaves them. -/
inductive PartitionColumns where
  | personal (owner_user_id : String)
  | repository (repo_id : Nat) (repo_owner repo_name : String)
  | environment (environment_id : String)
  deriving DecidableEq, Repr

inductive MemoryScopeType where
  | personal
  | repository
  | environment
  deriving DecidableEq, Repr

def PartitionColumns.partition_type : PartitionColumns → MemoryScopeType
  | personal _ => .personal
  | repository _ _ _ => .repository
  | environment _ => .environment

/-- `COALESCE(owner_user_id, CAST(repo_id AS TEXT), environment_id)` -/
def PartitionColumns.partition_key : PartitionColumns → List Char
  | personal owner_user_id => owner_user_id.toList
  | repository repo_id _ _ => Nat.toDigits 10 repo_id
  | environment environment_id => environment_id.toList

inductive MemoryScope where
  | personal
  | repository (repoOwner repoName : String)
  | environment (environmentId : String)
  deriving DecidableEq, Repr

def partitionFromColumns : PartitionColumns → MemoryPartition
  | .personal owner_user_id => .personal owner_user_id
  | .repository repo_id _ _ => .repository repo_id
  | .environment environment_id => .environment environment_id

def scopeFromColumns : PartitionColumns → MemoryScope
  | .personal _ => .personal
  | .repository _ repo_owner repo_name => .repository repo_owner repo_name
  | .environment environment_id => .environment environment_id

/-- A row of `memories`. -/
structure MemoryRow where
  id : Id
  columns : PartitionColumns
  memory_type : MemoryType
  status : MemoryStatus
  archive_kind : Option MemoryArchiveKind
  archive_note : Option String
  current_revision_id : Option Id
  author_kind : MemoryAuthorKind
  author_user_id : Option String
  author_session_id : Option String
  supersedes_memory_id : Option Id
  approved_at : Option Int
  archived_at : Option Int
  created_at : Int
  updated_at : Int
  deriving DecidableEq

/-- A row of `memory_revisions`. -/
structure MemoryRevision where
  id : Id
  memory_id : Id
  revision_number : Nat
  title : List Char
  description : List Char
  content : List Char
  deriving DecidableEq

/-- The tables between two batches of writes: each record has its current revision. -/
structure Db where
  memories : Table MemoryRow.id
  memory_revisions : Table MemoryRevision.id
  current : ∀ m ∈ memories.rows, ∃ r ∈ memory_revisions.rows,
    m.current_revision_id = some r.id ∧ r.memory_id = m.id

/-! ## Fragments -/

inductive SqlValue where
  | text (value : List Char)
  | number (value : Int)
  deriving DecidableEq, Repr

/-- A condition on rows with the values it binds. -/
structure SqlFragment (ρ : Type) where
  values : List SqlValue
  holds : ρ → Bool

namespace SqlFragment

variable {ρ : Type}

/-- `sql.join(fragments, " OR ")` -/
def any (fragments : List (SqlFragment ρ)) : SqlFragment ρ where
  values := fragments.flatMap values
  holds row := fragments.any fun fragment => fragment.holds row

/-- `sql.join(fragments, " AND ")` -/
def all (fragments : List (SqlFragment ρ)) : SqlFragment ρ where
  values := fragments.flatMap values
  holds row := fragments.all fun fragment => fragment.holds row

end SqlFragment

def MemoryScopeType.text : MemoryScopeType → List Char
  | personal => "personal".toList
  | repository => "repository".toList
  | environment => "environment".toList

def partitionType : MemoryPartition → MemoryScopeType
  | .personal _ => .personal
  | .repository _ => .repository
  | .environment _ => .environment

def partitionKey : MemoryPartition → List Char
  | .personal userId => userId.toList
  | .repository repoId => Nat.toDigits 10 repoId
  | .environment environmentId => environmentId.toList

def partitionPredicate (partition : MemoryPartition) : SqlFragment MemoryRow where
  values := [.text (partitionType partition).text, .text (partitionKey partition)]
  holds m := m.columns.partition_type = partitionType partition &&
    m.columns.partition_key = partitionKey partition

def inPartitions (partitions : List MemoryPartition) : SqlFragment MemoryRow :=
  .any (partitions.map partitionPredicate)

def escapeLikePattern (value : List Char) : List Char :=
  value.flatMap fun c => if c = '\\' ∨ c = '%' ∨ c = '_' then ['\\', c] else [c]

def likeContains (value : List Char) : List Char := '%' :: escapeLikePattern value ++ ['%']

def MEMORY_SEARCH_FIELDS : List (MemoryRevision → List Char) :=
  [MemoryRevision.title, MemoryRevision.description, MemoryRevision.content]

def revisionFieldMatches (field : MemoryRevision → List Char) (pattern : List Char) :
    SqlFragment MemoryRevision where
  values := [.text pattern]
  holds r := Strings.like pattern (Strings.sqlLower (field r))

def revisionMatchesAnyField (pattern : List Char) : SqlFragment MemoryRevision :=
  .any (MEMORY_SEARCH_FIELDS.map fun field => revisionFieldMatches field pattern)

def revisionMatchesAllTerms (patterns : List (List Char)) : SqlFragment MemoryRevision :=
  if patterns.length ≠ 0 then .all (patterns.map revisionMatchesAnyField)
  else ⟨[], fun _ => true⟩

/-! ## Queries -/

/-- A row of `CURRENT_MEMORY`: a record with its current revision. -/
structure CurrentMemory where
  m : MemoryRow
  r : MemoryRevision
  deriving DecidableEq

/-- `FROM memories m JOIN memory_revisions r ON r.id = m.current_revision_id AND …` -/
def Db.currentMemory (db : Db) : List CurrentMemory :=
  db.memories.rows.flatMap fun m =>
    (db.memory_revisions.rows.filter fun r =>
      some r.id = m.current_revision_id ∧ r.memory_id = m.id).map fun r => ⟨m, r⟩

/-- `updated_at DESC, id` -/
def Before (a b : MemoryRow) : Prop :=
  b.updated_at < a.updated_at ∨
    a.updated_at = b.updated_at ∧ Lexicographic.compare a.id.bytes b.id.bytes ≤ 0

instance : DecidableRel Before := fun a b =>
  inferInstanceAs (Decidable (b.updated_at < a.updated_at ∨
    a.updated_at = b.updated_at ∧ Lexicographic.compare a.id.bytes b.id.bytes ≤ 0))

/-- The order of rows by their record. -/
def By {α : Type} (record : α → MemoryRow) (a b : α) : Prop := Before (record a) (record b)

instance {α : Type} (record : α → MemoryRow) : DecidableRel (By record) := fun a b =>
  inferInstanceAs (Decidable (Before (record a) (record b)))

/-- `Omit<MemoryRow, "content">`: a row of `CURRENT_MEMORY` without its body. -/
structure ListedRow where
  m : MemoryRow
  /-- `m.current_revision_id`, which the join finds. -/
  current_revision_id : Id
  title : List Char
  description : List Char
  revision_number : Nat
  deriving DecidableEq

def CurrentMemory.listed (row : CurrentMemory) : ListedRow where
  m := row.m
  current_revision_id := row.r.id
  title := row.r.title
  description := row.r.description
  revision_number := row.r.revision_number

structure MemoryRecord where
  id : Id
  partition : MemoryPartition
  scope : MemoryScope
  memoryType : MemoryType
  status : MemoryStatus
  archiveKind : Option MemoryArchiveKind
  archiveNote : Option String
  title : List Char
  description : List Char
  content : List Char
  currentRevisionId : Id
  revisionNumber : Nat
  authorKind : MemoryAuthorKind
  authorUserId : Option String
  authorSessionId : Option String
  supersedesMemoryId : Option Id
  approvedAt : Option Int
  archivedAt : Option Int
  createdAt : Int
  updatedAt : Int
  deriving DecidableEq

def memoryFromRow (row : ListedRow) (content : List Char) : MemoryRecord where
  id := row.m.id
  partition := partitionFromColumns row.m.columns
  scope := scopeFromColumns row.m.columns
  memoryType := row.m.memory_type
  status := row.m.status
  archiveKind := row.m.archive_kind
  archiveNote := row.m.archive_note
  title := row.title
  description := row.description
  content
  currentRevisionId := row.current_revision_id
  revisionNumber := row.revision_number
  authorKind := row.m.author_kind
  authorUserId := row.m.author_user_id
  authorSessionId := row.m.author_session_id
  supersedesMemoryId := row.m.supersedes_memory_id
  approvedAt := row.m.approved_at
  archivedAt := row.m.archived_at
  createdAt := row.m.created_at
  updatedAt := row.m.updated_at

def CurrentMemory.record (row : CurrentMemory) : MemoryRecord :=
  memoryFromRow row.listed row.r.content

/-- What the pages of one list select by. -/
structure Filter where
  partitions : List MemoryPartition
  status : MemoryStatus
  patterns : List (List Char)

namespace Filter

variable (filter : Filter)

def values : List SqlValue :=
  (inPartitions filter.partitions).values ++ [.text filter.status.text] ++
    (revisionMatchesAllTerms filter.patterns).values

def holds (row : CurrentMemory) : Bool :=
  (inPartitions filter.partitions).holds row.m && row.m.status = filter.status &&
    (revisionMatchesAllTerms filter.patterns).holds row.r

end Filter

/-- The statements of a list. -/
inductive Statement where
  /-- The page itself, its ids selected first. -/
  | page (filter : Filter) (limit offset : Nat)
  /-- The first rows of a chunk of partitions, without their bodies. -/
  | candidates (filter : Filter) (limit : Nat)
  /-- The bodies of revisions. -/
  | bodies (revisionIds : List Id)

def Statement.values : Statement → List SqlValue
  | page filter limit offset => filter.values ++ [.number limit, .number offset]
  | candidates filter limit => filter.values ++ [.number limit]
  | bodies revisionIds => revisionIds.map fun id => .text id.1

namespace Db

variable (db : Db)

/-- The subquery of `page`. Without terms it reads `memories` alone. -/
def pageIds (filter : Filter) (limit offset : Nat) : List Id :=
  let rows := if filter.patterns.length ≠ 0 then
      (db.currentMemory.filter filter.holds).map CurrentMemory.m
    else db.memories.rows.filter fun m =>
      (inPartitions filter.partitions).holds m && m.status = filter.status
  (((rows.insertionSort Before).drop offset).take limit).map MemoryRow.id

/-- `… JOIN (…) page ON page.id = m.id ORDER BY …` -/
def page (filter : Filter) (limit offset : Nat) : List CurrentMemory :=
  (db.currentMemory.flatMap fun row =>
    ((db.pageIds filter limit offset).filter (· = row.m.id)).map fun _ => row).insertionSort
      (By CurrentMemory.m)

def candidates (filter : Filter) (limit : Nat) : List ListedRow :=
  (StableSort.top (By CurrentMemory.m) limit (db.currentMemory.filter filter.holds)).map
    CurrentMemory.listed

def bodies (revisionIds : List Id) : List (Id × List Char) :=
  (db.memory_revisions.rows.filter fun r => r.id ∈ revisionIds).map fun r => (r.id, r.content)

end Db

/-- The page of one query over all the partitions. -/
def singleQuery (db : Db) (filter : Filter) (offset limit : Nat) : List MemoryRecord :=
  ((((db.currentMemory.filter filter.holds).insertionSort (By CurrentMemory.m)).drop offset).take
    limit).map CurrentMemory.record

/-! ## The call -/

inductive ListError where
  /-- "Too many session filters" -/
  | d1QueryParameterLimit
  /-- "Selected memory revision is missing" -/
  | missingRevision
  /-- The loop over the chunks does not advance. -/
  | endless
  deriving DecidableEq, Repr

/-- A call with the statements it has prepared. -/
abbrev Call := StateT (List Statement) (Except ListError)

def prepareSql (statement : Statement) : Call Unit :=
  if MAX_D1_QUERY_PARAMETERS < statement.values.length then throw .d1QueryParameterLimit
  else modify (· ++ [statement])

/-- The indices of `for (let i = first; i < last; i += step)`, of `fuel` rounds at most. -/
def indices (step : Nat) : (fuel first last : Nat) → List Nat
  | 0, _, _ => []
  | fuel + 1, first, last =>
    if first < last then first :: indices step fuel (first + step) last else []

/-- `for (let i = first; i < last; i += step)`, where `step` is positive. -/
def loop (step first last : Nat) : List Nat := indices step (last - first) first last

/-- `l.slice(first, last)` -/
def slice {α : Type} (l : List α) (first last : Nat) : List α := (l.drop first).take (last - first)

/-- The comparator of the merge. -/
def comparator (a b : ListedRow) : Int :=
  if b.m.updated_at - a.m.updated_at ≠ 0 then b.m.updated_at - a.m.updated_at
  else if Lexicographic.compare a.m.id.units b.m.id.units < 0 then -1
  else if 0 < Lexicographic.compare a.m.id.units b.m.id.units then 1
  else 0

def Precedes (a b : ListedRow) : Prop := comparator a b ≤ 0

instance : DecidableRel Precedes := fun a b => inferInstanceAs (Decidable (comparator a b ≤ 0))

structure MemoryListOptions where
  status : MemoryStatus
  offset : Nat
  limit : Nat
  terms : List (List Char)

def MemoryListOptions.filter (options : MemoryListOptions) (partitions : List MemoryPartition) :
    Filter where
  partitions
  status := options.status
  patterns := options.terms.map likeContains

def chunkSize (options : MemoryListOptions) : Int :=
  ((MAX_D1_QUERY_PARAMETERS : Int) -
    (revisionMatchesAllTerms (options.terms.map likeContains)).values.length - 3) / 2

section
variable (db : Db) (partitions : List MemoryPartition) (options : MemoryListOptions)

/-- One batch: a statement for each chunk of `size` partitions, then their rows in order. -/
def batchRows (size batchStart : Nat) : Call (List ListedRow) := do
  let last := min (batchStart + size * LIST_CHUNKS_PER_BATCH) partitions.length
  let limit := options.offset + options.limit
  let filters := (loop size batchStart last).map fun start =>
    options.filter (slice partitions start (start + size))
  filters.forM fun filter => prepareSql (.candidates filter limit)
  pure (filters.flatMap fun filter => db.candidates filter limit)

/-- The loop of the batches. -/
def mergedRows (size : Nat) : Call (List ListedRow) :=
  (loop (size * LIST_CHUNKS_PER_BATCH) 0 partitions.length).foldlM (fun rows batchStart => do
    let results ← batchRows db partitions options size batchStart
    pure (StableSort.top Precedes (options.offset + options.limit) (rows ++ results))) []

/-- The loop of the bodies; a later entry replaces an earlier one. -/
def readBodies (page : List ListedRow) : Call (List (Id × List Char)) :=
  (loop MAX_D1_QUERY_PARAMETERS 0 page.length).foldlM (fun bodies start => do
    let ids := (slice page start (start + MAX_D1_QUERY_PARAMETERS)).map
      ListedRow.current_revision_id
    prepareSql (.bodies ids)
    pure ((db.bodies ids).reverse ++ bodies)) []

def withBody (bodies : List (Id × List Char)) (row : ListedRow) : Call MemoryRecord :=
  match bodies.lookup row.current_revision_id with
  | none => throw .missingRevision
  | some content => pure (memoryFromRow row content)

def listPartitions : Call (List MemoryRecord) := do
  if partitions.length = 0 then return []
  if (partitions.length : Int) ≤ chunkSize options then
    let filter := options.filter partitions
    prepareSql (.page filter options.limit options.offset)
    return (db.page filter options.limit options.offset).map CurrentMemory.record
  if chunkSize options ≤ 0 then throw .endless
  let rows ← mergedRows db partitions options (chunkSize options).toNat
  let page := rows.drop options.offset
  let bodies ← readBodies db page
  page.mapM (withBody bodies)

end

end BackgroundAgents.Memory.Listing
